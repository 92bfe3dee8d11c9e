import Sluice.Text.CaseTable

/-!
Lower case of whole texts. Two letters are not mapped alone: the dotted capital I becomes two
characters, and a capital sigma takes its final form at the end of a word.
-/
namespace Sluice.Text

def inRanges (ranges : List (Nat × Nat)) (c : Char) : Bool :=
  ranges.any fun (first, last) => first ≤ c.toNat && c.toNat ≤ last

def isCased (c : Char) : Bool := inRanges casedRanges c

def isCaseIgnorable (c : Char) : Bool := inRanges caseIgnorableRanges c

/-- The lower form of one letter; other characters are their own. -/
def lowerChar (c : Char) : Char :=
  match lowerRuns.find? fun (first, last, step, _) =>
      first ≤ c.toNat && c.toNat ≤ last && (c.toNat - first) % step = 0 with
  | some (_, _, _, shift) => Char.ofNat (c.toNat + shift).toNat
  | none => c

/-- Whether a cased letter comes first, once characters that do not part letters are skipped. -/
def startsCased (cs : List Char) : Bool :=
  match cs.dropWhile isCaseIgnorable with
  | c :: _ => isCased c
  | [] => false

/-- The lower form of `cs`, where `before` holds the characters in front of it, last first. -/
def lowerAfter (before : List Char) : List Char → List Char
  | [] => []
  | c :: cs =>
    let lower :=
      if c.toNat < 0x80 then [c.toLower]
      else if c = 'İ' then ['i', '\u0307']
      else if c = 'Σ' then if startsCased before && !startsCased cs then ['ς'] else ['σ']
      else [lowerChar c]
    lower ++ lowerAfter (c :: before) cs

def lowercase (s : String) : String := String.ofList (lowerAfter [] s.toList)

/-- Whether `needle` stands somewhere in `text`. -/
def containsRun (needle : List Char) : List Char → Bool
  | [] => needle.isEmpty
  | c :: cs => needle.isPrefixOf (c :: cs) || containsRun needle cs

end Sluice.Text
