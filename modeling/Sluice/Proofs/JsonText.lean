import Mathlib.Data.List.TakeDrop
import Mathlib.Data.List.TakeWhile
import Sluice.Json.Printer
import Sluice.Json.Reader

/-!
Reading what was written: the text of a JSON value without binary64 numbers denotes the value, as
long as no more containers are open at once than the reader allows.
-/
namespace Sluice.Json

/-! ## Values that can be read back -/

mutual

/-- How many containers are open at once in the text of a value. -/
def depth : Json → Nat
  | .list items => depthItems items + 1
  | .object members => depthMembers members + 1
  | _ => 0

def depthItems : List Json → Nat
  | [] => 0
  | x :: xs => max (depth x) (depthItems xs)

def depthMembers : List (String × Json) → Nat
  | [] => 0
  | (_, v) :: rest => max (depth v) (depthMembers rest)

end

mutual

/-- Whole numbers are words, there are no others, and keys ascend. -/
def Legible : Json → Prop
  | .number (.int n) => Word.FitsSigned n ∨ Word.FitsUnsigned n
  | .number (.float _) => False
  | .list items => LegibleItems items
  | .object members => LegibleMembers members
  | _ => True

def LegibleItems : List Json → Prop
  | [] => True
  | x :: xs => Legible x ∧ LegibleItems xs

def LegibleMembers : List (String × Json) → Prop
  | [] => True
  | (k, v) :: rest => Legible v ∧ (∀ k' ∈ rest.map Prod.fst, k < k') ∧ LegibleMembers rest

end

theorem insert_of_forall_lt {key : String} {value : Json} {members : Members}
    (h : ∀ k ∈ members.map Prod.fst, k < key) :
    Members.insert key value members = members ++ [(key, value)] := by
  induction members with
  | nil => rfl
  | cons entry rest ih =>
      obtain ⟨k, v⟩ := entry
      have hk : k < key := h k (by simp)
      have hrest := ih fun k' hk' => h k' (by simp only [List.map_cons, List.mem_cons, hk', or_true])
      have hne : key ≠ k := fun he => String.lt_irrefl k (he ▸ hk)
      simp only [Members.insert, String.lt_asymm hk, hne, ↓reduceIte, hrest, List.cons_append]

/-! ## Numbers -/

/-- Only zero is written with a zero in front. -/
theorem head?_toDigits {n : Nat} (h : (Nat.toDigits 10 n).head? = some '0') : n = 0 := by
  induction n using Nat.strongRecOn with
  | ind n ih =>
      rw [Nat.toDigits_eq_if (by decide)] at h
      split at h
      · have hdigit : ∀ d < 10, Nat.digitChar d = '0' → d = 0 := by decide
        exact hdigit n (by assumption) (by simpa using h)
      · rename_i hle
        rw [List.head?_append, List.head?_eq_some_head Nat.toDigits_ne_nil, Option.some_or,
          ← List.head?_eq_some_head] at h
        have := ih (n / 10) (by omega) h
        omega

theorem takeDigits_toDigits (n : Nat) : takeDigits (Nat.toDigits 10 n) = (Nat.toDigits 10 n, []) := by
  have hall : ∀ c ∈ Nat.toDigits 10 n, c.isDigit = true :=
    fun c hc => Nat.isDigit_of_mem_toDigits (by decide) (by decide) hc
  rw [takeDigits, List.span_eq_takeWhile_dropWhile, List.takeWhile_eq_self_iff.mpr hall,
    List.dropWhile_eq_nil_iff.mpr hall]

theorem unsignedNumber?_toDigits {negative : Bool} {n : Nat}
    (h : if negative then 0 < n ∧ n ≤ Word.signedLimit else n < Word.unsignedLimit) :
    unsignedNumber? negative (Nat.toDigits 10 n) = some (.int (if negative then -n else n)) := by
  have hzero : ¬(Nat.toDigits 10 n = [] ∨
      (Nat.toDigits 10 n).head? = some '0' ∧ (Nat.toDigits 10 n).length ≠ 1) := by
    rintro (hnil | ⟨hhead, hlength⟩)
    · exact Nat.toDigits_ne_nil hnil
    · rw [head?_toDigits hhead, Nat.toDigits_zero] at hlength
      exact hlength rfl
  simp only [unsignedNumber?, takeDigits_toDigits, hzero, ↓reduceIte, natOfDigits,
    Nat.ofDigitChars_ten_toDigits]
  rw [if_pos]
  cases negative with
  | false =>
      simp only [Bool.false_eq_true, ↓reduceIte] at h ⊢
      exact .inl ⟨⟨by omega, by omega⟩, by simp⟩
  | true =>
      simp only [↓reduceIte] at h ⊢
      exact .inr ⟨⟨by omega, by omega⟩, by omega⟩

theorem toList_toString (n : Int) :
    (toString n).toList =
      if n < 0 then '-' :: Nat.toDigits 10 n.natAbs else Nat.toDigits 10 n.natAbs := by
  rw [Int.toString_eq_repr, Int.repr_eq_if]
  split
  · rw [if_neg (by omega), Nat.toList_repr]
    congr 1
    omega
  · rw [if_pos (by omega), String.toList_append, Nat.toList_repr]
    have : (-n).toNat = n.natAbs := by omega
    rw [this]
    rfl

theorem number?_toString {n : Int} (h : Word.FitsSigned n ∨ Word.FitsUnsigned n) :
    number? (toString n).toList = some (.int n) := by
  rw [toList_toString]
  split
  · rename_i hneg
    have hfits : 0 < n.natAbs ∧ n.natAbs ≤ Word.signedLimit := by
      rcases h with ⟨hlo, -⟩ | ⟨hlo, -⟩ <;> omega
    have := @unsignedNumber?_toDigits true n.natAbs hfits
    rw [number?, this]
    simp only [↓reduceIte, Option.some.injEq, Number.int.injEq]
    omega
  · rename_i hpos
    have hfits : n.natAbs < Word.unsignedLimit := by
      have hlimits : Word.signedLimit ≤ Word.unsignedLimit := by decide
      rcases h with ⟨-, hhi⟩ | ⟨-, hhi⟩ <;> omega
    have := @unsignedNumber?_toDigits false n.natAbs hfits
    have hsign : ∀ cs, Nat.toDigits 10 n.natAbs ≠ '-' :: cs := by
      intro cs hcs
      have : '-'.isDigit = true :=
        Nat.isDigit_of_mem_toDigits (by decide) (by decide) (hcs ▸ List.mem_cons_self)
      exact absurd this (by decide)
    unfold number?
    split
    · exact absurd (by assumption) (hsign _)
    · rw [this]
      simp only [Bool.false_eq_true, ↓reduceIte, Option.some.injEq, Number.int.injEq]
      omega

namespace Reader

/-! ## Quoted texts -/

/-- Reads on through a text. -/
def read (r : Reader) (cs : List Char) : Option Reader := cs.foldlM step r

theorem read_append (r : Reader) (cs ds : List Char) :
    r.read (cs ++ ds) = (r.read cs).bind (·.read ds) := List.foldlM_append

theorem read_cons (r : Reader) (c : Char) (cs : List Char) :
    r.read (c :: cs) = (r.step c).bind (·.read cs) := rfl

variable {stack : List Frame} {want : Want}

theorem hexValue?_hexDigit (n : Nat) : hexValue? (hexDigit n) = some (n % 16) := by
  have h : ∀ d < 16, hexValue? (Nat.digitChar d) = some d := by decide
  exact h _ (Nat.mod_lt _ (by decide))

theorem read_escape (reversed : List Char) (c : Char) :
    read ⟨stack, want, .quoted reversed⟩ (escape c) =
      some ⟨stack, want, .quoted (c :: reversed)⟩ := by
  unfold escape
  iterate 7
    split
    · subst_vars; rfl
  split
  · rename_i hlt
    have hhigh := hexValue?_hexDigit (c.toNat / 16)
    have hlow := hexValue?_hexDigit c.toNat
    have hzero : hexValue? '0' = some 0 := by decide
    have hunit : c.toNat / 16 % 16 * 16 + c.toNat % 16 = c.toNat := by omega
    have hhighHalf : ¬(0xD800 ≤ c.toNat ∧ c.toNat < 0xDC00) := by omega
    have hlowHalf : ¬(0xDC00 ≤ c.toNat ∧ c.toNat < 0xE000) := by omega
    simp [read, step, hzero, hhigh, hlow, hunit, unicodeEscape, hhighHalf, hlowHalf]
  · rename_i hquote hslash _ _ _ _ _ hle
    simp [read, step, hquote, hslash]
    omega

theorem read_escapes (reversed cs : List Char) :
    read ⟨stack, want, .quoted reversed⟩ (cs.flatMap escape) =
      some ⟨stack, want, .quoted (cs.reverse ++ reversed)⟩ := by
  induction cs generalizing reversed with
  | nil => rfl
  | cons c cs ih =>
      rw [List.flatMap_cons, read_append, read_escape, Option.bind_some, ih]
      simp

/-- The reader once the quotes of a text are closed, by what it wants. -/
theorem read_quote {r : Reader} (s : String)
    (h : r.between '"' = some ⟨stack, want, .quoted []⟩) (hlexeme : r.lexeme = .none) :
    r.read (quote s).toList = completeText ⟨stack, want, .quoted s.toList.reverse⟩ s := by
  have hchars : (quote s).toList = '"' :: (s.toList.flatMap escape ++ ['"']) := by
    simp [quote]
  have hopen : r.step '"' = some ⟨stack, want, .quoted []⟩ := by rw [step, hlexeme, h]
  rw [hchars, read_cons, hopen, Option.bind_some, read_append, read_escapes, Option.bind_some,
    List.append_nil]
  simp [read, step]

/-! ## Values -/

/-- A value may start here, in the containers `stack`. -/
def Awaits (r : Reader) (stack : List Frame) : Prop :=
  r.lexeme = .none ∧ r.stackForValue? = some stack

/-- From here on the reader is as good as `q`, which is between two lexemes: it may still have to
notice that a word has ended. -/
def Closes (r q : Reader) : Prop :=
  (∀ c, endsWord c = true → r.step c = q.between c) ∧ r.finish = q.finish

theorem lexeme_complete (value : Json) (stack : List Frame) :
    (complete value stack).lexeme = .none := by
  cases stack with
  | nil => rfl
  | cons frame stack => cases frame <;> rfl

theorem Closes.refl {r : Reader} (h : r.lexeme = .none) : Closes r r :=
  ⟨fun c _ => by rw [step, h], rfl⟩

theorem closes_complete (value : Json) (stack : List Frame) :
    Closes (complete value stack) (complete value stack) := .refl (lexeme_complete value stack)

/-- Reading on behind a value, when what follows ends every word. -/
theorem Closes.read_cons {r q : Reader} (h : Closes r q) {c : Char} (hc : endsWord c = true)
    (cs : List Char) : r.read (c :: cs) = (q.between c).bind (·.read cs) := by
  rw [Reader.read_cons, h.1 c hc]

theorem endsWord_of_mem {cs : List Char} (h : cs.any endsWord = false) (c : Char) (hc : c ∈ cs) :
    endsWord c = false :=
  Bool.not_eq_true _ ▸ List.any_eq_false.mp h c hc

/-- A word is complete once something that ends words follows it. -/
theorem read_word {r : Reader} {cs : List Char} {value : Json} (ha : r.Awaits stack)
    (hcs : ∀ c ∈ cs, endsWord c = false) (hvalue : word? cs = some value) :
    ∃ r', r.read cs = some r' ∧ Closes r' (complete value stack) := by
  obtain ⟨hlexeme, hstack⟩ := ha
  have hgrow : ∀ (cs reversed : List Char), (∀ c ∈ cs, endsWord c = false) →
      read ⟨stack, .value, .word reversed⟩ cs =
        some ⟨stack, .value, .word (cs.reverse ++ reversed)⟩ := by
    intro cs
    induction cs with
    | nil => intro reversed _; rfl
    | cons c cs ih =>
        intro reversed hcs
        have hc := hcs c List.mem_cons_self
        rw [Reader.read_cons]
        simp only [step, hc, Bool.false_eq_true, ↓reduceIte, Option.bind_some]
        rw [ih _ fun d hd => hcs d (List.mem_cons_of_mem _ hd)]
        simp
  cases cs with
  | nil => simp [word?, number?, unsignedNumber?, takeDigits] at hvalue
  | cons c cs =>
      have hc := hcs c List.mem_cons_self
      have hstart : r.step c = some ⟨stack, .value, .word [c]⟩ := by
        simp only [endsWord, Bool.or_eq_false_iff, decide_eq_false_iff_not] at hc
        simp [step, hlexeme, between, hc, hstack]
      refine ⟨⟨stack, .value, .word (cs.reverse ++ [c])⟩, ?_, ?_, ?_⟩
      · rw [Reader.read_cons, hstart, Option.bind_some,
          hgrow _ _ fun d hd => hcs d (List.mem_cons_of_mem _ hd)]
      · intro d hd
        simp [step, hd, flushWord, hvalue]
      · simp [finish, flushWord, hvalue, lexeme_complete]

theorem endsWord_of_isDigit {c : Char} (h : c.isDigit = true) : endsWord c = false := by
  by_contra hends
  simp only [endsWord, isBlank, Bool.not_eq_false, Bool.or_eq_true, decide_eq_true_eq] at hends
  rcases hends with (((((((((rfl | rfl) | rfl) | rfl) | rfl) | rfl) | rfl) | rfl) | rfl) | rfl) | rfl
    <;> exact absurd h (by decide)

/-- A number is written in digits and a sign, which no other word is. -/
theorem digit_of_mem_toString {n : Int} {c : Char} (h : c ∈ (toString n).toList) :
    c = '-' ∨ c.isDigit = true := by
  rw [toList_toString] at h
  have hdigit : c ∈ Nat.toDigits 10 n.natAbs → c.isDigit = true :=
    fun h => Nat.isDigit_of_mem_toDigits (by decide) (by decide) h
  split at h
  · rcases List.mem_cons.mp h with rfl | h
    · exact .inl rfl
    · exact .inr (hdigit h)
  · exact .inr (hdigit h)

theorem word?_toString {n : Int} (h : Word.FitsSigned n ∨ Word.FitsUnsigned n) :
    word? (toString n).toList = some (.number (.int n)) := by
  have hword : ∀ {s : String} {c : Char}, c ∈ s.toList → ¬(c = '-' ∨ c.isDigit = true) →
      toString n ≠ s := fun hc hdigit hs => hdigit (digit_of_mem_toString (hs ▸ hc))
  unfold word?
  rw [String.ofList_toList]
  split
  · exact absurd (by assumption) (@hword _ 'n' (by decide) (by decide))
  · exact absurd (by assumption) (@hword _ 't' (by decide) (by decide))
  · exact absurd (by assumption) (@hword _ 'f' (by decide) (by decide))
  · rw [number?_toString h, Option.map_some]

theorem Awaits.bracket {r : Reader} (ha : r.Awaits stack) (hdepth : stack.length < maxDepth) :
    r.step '[' = some ⟨stack, .firstItem, .none⟩ := by
  obtain ⟨hlexeme, hstack⟩ := ha
  have : ¬maxDepth ≤ stack.length := by omega
  simp [step, hlexeme, between, isBlank, hstack, this]

theorem Awaits.brace {r : Reader} (ha : r.Awaits stack) (hdepth : stack.length < maxDepth) :
    r.step '\x7b' = some ⟨stack, .firstKey, .none⟩ := by
  obtain ⟨hlexeme, hstack⟩ := ha
  have : ¬maxDepth ≤ stack.length := by omega
  simp [step, hlexeme, between, isBlank, hstack, this]

theorem Awaits.text {r : Reader} (ha : r.Awaits stack) (s : String) :
    r.read (quote s).toList = some (complete (.text s) stack) := by
  obtain ⟨hlexeme, hstack⟩ := ha
  have hquote : r.between '"' = some ⟨stack, .value, .quoted []⟩ := by
    simp only [stackForValue?] at hstack
    split at hstack <;> cases hstack <;> simp [between, isBlank, *]
  rw [read_quote s hquote hlexeme]
  rfl

theorem read_key {r : Reader} {members : Members} (key : String) (cs : List Char)
    (h : r = ⟨stack, .firstKey, .none⟩ ∧ members = [] ∨ r = ⟨stack, .key members, .none⟩) :
    r.read ((quote key).toList ++ ':' :: cs) =
      read ⟨.object members key :: stack, .value, .none⟩ cs := by
  rw [read_append]
  rcases h with ⟨rfl, rfl⟩ | rfl
  · rw [@read_quote stack .firstKey _ key rfl rfl]
    rfl
  · rw [@read_quote stack (.key members) _ key rfl rfl]
    rfl

mutual

/-- Reading the text of a value where one may start completes the value. -/
theorem read_render : (j : Json) → Legible j → ∀ {r : Reader} {stack : List Frame},
    r.Awaits stack → stack.length + depth j ≤ maxDepth →
      ∃ r', r.read (render j).toList = some r' ∧ Closes r' (complete j stack)
  | .null, _, _, _, ha, _ => read_word ha (endsWord_of_mem rfl) rfl
  | .bool true, _, _, _, ha, _ => read_word ha (endsWord_of_mem rfl) rfl
  | .bool false, _, _, _, ha, _ => read_word ha (endsWord_of_mem rfl) rfl
  | .number (.int n), h, _, _, ha, _ =>
      read_word ha
        (fun c hc => by
          rcases digit_of_mem_toString hc with rfl | hdigit
          · decide
          · exact endsWord_of_isDigit hdigit)
        (word?_toString h)
  | .number (.float _), h, _, _, _, _ => h.elim
  | .text s, _, _, stack, ha, _ => ⟨_, ha.text s, closes_complete _ stack⟩
  | .list [], _, r, stack, ha, hdepth => by
      refine ⟨complete (.list []) stack, ?_, closes_complete _ stack⟩
      rw [show (render (.list [])).toList = ['[', ']'] from rfl, Reader.read_cons,
        ha.bracket (by simp only [depth] at hdepth; omega)]
      rfl
  | .list (x :: xs), h, r, stack, ha, hdepth => by
      simp only [depth, depthItems] at hdepth
      have hopen : (⟨stack, .firstItem, .none⟩ : Reader).Awaits (.list [] :: stack) := ⟨rfl, rfl⟩
      obtain ⟨r₁, hr₁, hc₁⟩ := read_render x h.1 hopen (by simp only [List.length_cons]; omega)
      obtain ⟨r₂, hr₂, hc₂⟩ := read_renderItems xs h.2 hc₁ (by omega)
      refine ⟨complete (.list (x :: xs)) stack, ?_, closes_complete _ stack⟩
      simp only [render, String.toList_append, List.append_assoc]
      rw [show "[".toList = ['['] from rfl, List.singleton_append, Reader.read_cons,
        ha.bracket (by omega), Option.bind_some, read_append, hr₁, Option.bind_some, read_append,
        hr₂, Option.bind_some, show "]".toList = [']'] from rfl, hc₂.read_cons rfl]
      simp [between, isBlank, read]
  | .object [], _, r, stack, ha, hdepth => by
      refine ⟨complete (.object []) stack, ?_, closes_complete _ stack⟩
      rw [show (render (.object [])).toList = ['\x7b', '\x7d'] from rfl, Reader.read_cons,
        ha.brace (by simp only [depth] at hdepth; omega)]
      rfl
  | .object ((k, v) :: rest), h, r, stack, ha, hdepth => by
      obtain ⟨hv, hkeys, hrest⟩ := h
      simp only [depth, depthMembers] at hdepth
      have hopen : (⟨.object [] k :: stack, .value, .none⟩ : Reader).Awaits
          (.object [] k :: stack) := ⟨rfl, rfl⟩
      obtain ⟨r₁, hr₁, hc₁⟩ := read_render v hv hopen (by simp only [List.length_cons]; omega)
      have hc₁ : Closes r₁ ⟨stack, .nextMember [(k, v)], .none⟩ := hc₁
      obtain ⟨r₂, hr₂, hc₂⟩ := read_renderMembers rest hrest (by simpa using hkeys) hc₁ (by omega)
      refine ⟨complete (.object ((k, v) :: rest)) stack, ?_, closes_complete _ stack⟩
      simp only [render, String.toList_append, List.append_assoc]
      rw [show "\x7b".toList = ['\x7b'] from rfl, List.singleton_append, Reader.read_cons,
        ha.brace (by omega), Option.bind_some, show ":".toList = [':'] from rfl,
        List.singleton_append, read_key k _ (.inl ⟨rfl, rfl⟩), read_append, hr₁, Option.bind_some,
        read_append, hr₂, Option.bind_some, show "\x7d".toList = ['\x7d'] from rfl,
        hc₂.read_cons rfl]
      simp [between, isBlank, read]

theorem read_renderItems : (items : List Json) → LegibleItems items →
    ∀ {r : Reader} {stack : List Frame} {reversed : List Json},
      Closes r ⟨stack, .nextItem reversed, .none⟩ →
      stack.length + 1 + depthItems items ≤ maxDepth →
        ∃ r', r.read (renderItems items).toList = some r' ∧
          Closes r' ⟨stack, .nextItem (items.reverse ++ reversed), .none⟩
  | [], _, r, _, _, hc, _ => ⟨r, rfl, hc⟩
  | x :: xs, h, r, stack, reversed, hc, hdepth => by
      simp only [depthItems] at hdepth
      have hopen : (⟨.list reversed :: stack, .value, .none⟩ : Reader).Awaits
          (.list reversed :: stack) := ⟨rfl, rfl⟩
      obtain ⟨r₁, hr₁, hc₁⟩ := read_render x h.1 hopen (by simp only [List.length_cons]; omega)
      obtain ⟨r₂, hr₂, hc₂⟩ := read_renderItems xs h.2 hc₁ (by omega)
      refine ⟨r₂, ?_, by simpa using hc₂⟩
      simp only [renderItems, String.toList_append, List.append_assoc]
      rw [show ",".toList = [','] from rfl, List.singleton_append, hc.read_cons rfl,
        show between ⟨stack, .nextItem reversed, .none⟩ ',' =
          some ⟨.list reversed :: stack, .value, .none⟩ from rfl,
        Option.bind_some, read_append, hr₁, Option.bind_some, hr₂]

/-- The members after the first join those already read. -/
theorem read_renderMembers : (rest : List (String × Json)) → LegibleMembers rest →
    ∀ {r : Reader} {stack : List Frame} {members : Members},
      (∀ k ∈ members.map Prod.fst, ∀ k' ∈ rest.map Prod.fst, k < k') →
      Closes r ⟨stack, .nextMember members, .none⟩ →
      stack.length + 1 + depthMembers rest ≤ maxDepth →
        ∃ r', r.read (renderMembers rest).toList = some r' ∧
          Closes r' ⟨stack, .nextMember (members ++ rest), .none⟩
  | [], _, r, _, _, _, hc, _ => ⟨r, rfl, by simpa using hc⟩
  | (k, v) :: rest, h, r, stack, members, hkeys, hc, hdepth => by
      obtain ⟨hv, hlater, hrest⟩ := h
      simp only [depthMembers] at hdepth
      have hopen : (⟨.object members k :: stack, .value, .none⟩ : Reader).Awaits
          (.object members k :: stack) := ⟨rfl, rfl⟩
      have hinsert : Members.insert k v members = members ++ [(k, v)] :=
        insert_of_forall_lt fun k' hk' => hkeys k' hk' k (by simp)
      obtain ⟨r₁, hr₁, hc₁⟩ := read_render v hv hopen (by simp only [List.length_cons]; omega)
      rw [complete, hinsert] at hc₁
      have hbelow : ∀ k₁ ∈ (members ++ [(k, v)]).map Prod.fst, ∀ k₂ ∈ rest.map Prod.fst,
          k₁ < k₂ := by
        intro k₁ hk₁ k₂ hk₂
        rw [List.map_append, List.mem_append] at hk₁
        rcases hk₁ with hk₁ | hk₁
        · exact hkeys k₁ hk₁ k₂ (by rw [List.map_cons]; exact List.mem_cons_of_mem _ hk₂)
        · obtain rfl : k₁ = k := by simpa using hk₁
          exact hlater k₂ hk₂
      obtain ⟨r₂, hr₂, hc₂⟩ := read_renderMembers rest hrest hbelow hc₁ (by omega)
      refine ⟨r₂, ?_, by simpa using hc₂⟩
      simp only [renderMembers, String.toList_append, List.append_assoc]
      rw [show ",".toList = [','] from rfl, List.singleton_append, hc.read_cons rfl,
        show between ⟨stack, .nextMember members, .none⟩ ',' = some ⟨stack, .key members, .none⟩
          from rfl,
        Option.bind_some, show ":".toList = [':'] from rfl, List.singleton_append,
        read_key k _ (.inr rfl), read_append, hr₁, Option.bind_some, hr₂]

end

end Reader

/-- What is written of a value denotes the value. -/
theorem parse?_render {j : Json} (h : Legible j) (hdepth : depth j ≤ maxDepth) :
    parse? (render j) = some j := by
  have hstart : Reader.start.Awaits [] := ⟨rfl, rfl⟩
  obtain ⟨r, hr, -, hfinish⟩ := Reader.read_render j h hstart (by simpa using hdepth)
  have hread : (render j).toList.foldlM Reader.step Reader.start = some r := hr
  rw [parse?, hread, Option.bind_some, hfinish]
  rfl

end Sluice.Json
