import Sluice.Session

/-!
A store that plays prepared answers before it answers from memory, and records what it is asked. It
stands for stores that fail, or change between two searches of one read.
-/
namespace Sluice

/-- What happens at one search. -/
inductive ScriptEntry where
  | pass
  /-- Documents arrive just before the search. -/
  | insert (index : String) (documents : List Members)
  | answer (answer : Except StoreError Response)

structure ScriptedStore where
  memory : MemoryStore
  script : List ScriptEntry
  /-- All searches so far, the last one first. -/
  asked : List SearchRequest

namespace ScriptedStore

def insert (s : ScriptedStore) (index : String) (documents : List Members) : ScriptedStore :=
  { s with memory := s.memory.insert index documents }

def search (s : ScriptedStore) (request : SearchRequest) :
    Except StoreError Response × ScriptedStore :=
  let s := { s with asked := request :: s.asked }
  match s.script with
  | [] => (s.memory.search request, s)
  | entry :: script =>
    let s := { s with script }
    match entry with
    | .pass => (s.memory.search request, s)
    | .insert index documents =>
      let s := s.insert index documents
      (s.memory.search request, s)
    | .answer answer => (answer, s)

def store : Store ScriptedStore := ⟨search⟩

end ScriptedStore
end Sluice
