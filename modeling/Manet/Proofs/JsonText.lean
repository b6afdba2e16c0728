import Manet.Json.Printing
import Manet.Json.Reading
import Manet.Proofs.AddressText

/-!
# JSON is read as it is written

`Json.Spells` relates a value to its texts: any blanks may stand around the parts of a list or an
object. The reader takes every text of a value for that value (`Json.value?_of_spells`, by induction
on the fuel; one unit for each character is enough), and both writers, of the compact text and of the
text over lines, write a text of the value, provided that its numbers are natural and its strings
have a text (`Json.IsPlain`). So what is written is read back (`Json.parse?_toCompactString`,
`Json.parse?_toPrettyString`).
-/

namespace Manet.Json

/-! ## Values and their texts -/

/-- A value whose numbers are natural and whose strings have a text, at any depth. -/
inductive IsPlain : Json → Prop where
  | null : IsPlain .null
  | bool (b : Bool) : IsPlain (.bool b)
  | natural (n : Nat) : IsPlain (.natural n)
  | text (s : String) : IsPlain (.text s)
  | list {items : List Json} (h : ∀ j ∈ items, IsPlain j) : IsPlain (.list items)
  | record {members : List (String × Json)} (h : ∀ m ∈ members, IsPlain m.2) : IsPlain (.record members)

/-- The characters are blanks. -/
def Blanks (cs : List Char) : Prop := ∀ c ∈ cs, isBlank c = true

mutual

/-- The text, which has no blanks at its ends, is one of the value's. -/
inductive Spells : Json → List Char → Prop where
  | null : Spells .null (scalar .null)
  | bool (b : Bool) : Spells (.bool b) (scalar (.bool b))
  | natural (n : Nat) : Spells (.natural n) (scalar (.natural n))
  | text (s : String) : Spells (.text s) (scalar (.text s))
  | noItem : Spells (.list []) ['[', ']']
  | items {items : List Json} {cs : List Char} (h : SpellsItems items cs) :
      Spells (.list items) ('[' :: cs)
  | noMember : Spells (.object []) ['\x7b', '\x7d']
  | members {members : List (JsonText × Json)} {cs : List Char} (h : SpellsMembers members cs) :
      Spells (.object members) ('\x7b' :: cs)

/-- The text is one of the items up to the end of a list. -/
inductive SpellsItems : List Json → List Char → Prop where
  | last {item : Json} {before cs after : List Char} (hbefore : Blanks before) (h : Spells item cs)
      (hafter : Blanks after) : SpellsItems [item] (before ++ (cs ++ (after ++ [']'])))
  | next {item : Json} {items : List Json} {before cs after cs' : List Char} (hbefore : Blanks before)
      (h : Spells item cs) (hafter : Blanks after) (hitems : SpellsItems items cs') :
      SpellsItems (item :: items) (before ++ (cs ++ (after ++ ',' :: cs')))

/-- The text is one of the members up to the end of an object. -/
inductive SpellsMembers : List (JsonText × Json) → List Char → Prop where
  | last {name : String} {value : Json} {before between cs after : List Char} (hbefore : Blanks before)
      (hbetween : Blanks between) (h : Spells value cs) (hafter : Blanks after) :
      SpellsMembers [(some name, value)]
        (before ++ (quotedText (some name) ++ ':' :: (between ++ (cs ++ (after ++ ['\x7d'])))))
  | next {name : String} {value : Json} {members : List (JsonText × Json)}
      {before between cs after cs' : List Char} (hbefore : Blanks before) (hbetween : Blanks between)
      (h : Spells value cs) (hafter : Blanks after) (hmembers : SpellsMembers members cs') :
      SpellsMembers ((some name, value) :: members)
        (before ++ (quotedText (some name) ++ ':' :: (between ++ (cs ++ (after ++ ',' :: cs')))))

end

/-! ## Blanks -/

theorem skipBlanks_append {bs : List Char} (h : Blanks bs) (cs : List Char) :
    skipBlanks (bs ++ cs) = skipBlanks cs := by
  rw [skipBlanks, List.dropWhile_append_of_pos h, skipBlanks]

theorem skipBlanks_cons {c : Char} (h : isBlank c = false) (cs : List Char) :
    skipBlanks (c :: cs) = c :: cs := by
  rw [skipBlanks, List.dropWhile_cons_of_neg (by rw [h]; nofun)]

/-- Blanks in front of a character that is none. -/
theorem skipBlanks_append_cons {bs : List Char} (h : Blanks bs) {c : Char} (hc : isBlank c = false)
    (cs : List Char) : skipBlanks (bs ++ c :: cs) = c :: cs := by
  rw [skipBlanks_append h, skipBlanks_cons hc]

/-- The text cannot continue a number. -/
def Ends (cs : List Char) : Prop :=
  ∀ c ∈ cs.head?, c.isDigit = false ∧ c ≠ '.' ∧ c ≠ 'e' ∧ c ≠ 'E'

theorem ends_nil : Ends [] := nofun

/-- No number goes on behind blanks or at the end of an item or a member. -/
theorem ends_append {bs : List Char} (h : Blanks bs) {c : Char} (hc : c ∈ [',', ']', '\x7d'])
    (cs : List Char) : Ends (bs ++ c :: cs) := by
  have hmarks : ∀ c ∈ [',', ']', '\x7d', ' ', '\n', '\t', '\r'],
      c.isDigit = false ∧ c ≠ '.' ∧ c ≠ 'e' ∧ c ≠ 'E' := by simp
  intro d hd
  refine hmarks d ?_
  cases bs with
  | nil =>
    obtain rfl := Option.some.inj hd
    exact List.mem_append_left [' ', '\n', '\t', '\r'] hc
  | cons b bs =>
    obtain rfl := Option.some.inj hd
    have hb := h b List.mem_cons_self
    rw [isBlank, decide_eq_true_eq] at hb
    obtain rfl | rfl | rfl | rfl := hb <;> decide

/-! ## Strings -/

/-- A letter behind a backslash is read as the character that it stands for. -/
theorem units?_escape {e d : Char} (he : escapeLetter? e = some d) (hu : e ≠ 'u') (cs : List Char) :
    units? ('\\' :: e :: cs) = (units? cs).map fun (ns, rest) => (d.toNat :: ns, rest) := by
  rw [units?, he]
  · cases units? cs <;> rfl
  · intro a b c d cs hu'
    exact absurd hu' hu

/-- A control is read from its number. -/
theorem units?_control {n : Nat} (h : n < 32) (cs : List Char) :
    units? ('\\' :: 'u' :: '0' :: '0' :: Nat.digitChar (n / 16) :: Nat.digitChar (n % 16) :: cs) =
      (units? cs).map fun (ns, rest) => (n :: ns, rest) := by
  have hnumber : Text.hexNumber? ['0', '0', Nat.digitChar (n / 16), Nat.digitChar (n % 16)] = some n := by
    revert n
    decide
  rw [units?, hnumber]
  cases units? cs <;> rfl

/-- A character is read from what it is written as. -/
theorem units?_escapedChar (c : Char) (cs : List Char) :
    units? (escapedChar c ++ cs) = (units? cs).map fun (ns, rest) => (c.toNat :: ns, rest) := by
  rw [escapedChar]
  split
  · subst c
    exact units?_escape rfl (by decide) cs
  split
  · subst c
    exact units?_escape rfl (by decide) cs
  split
  · subst c
    exact units?_escape rfl (by decide) cs
  split
  · subst c
    exact units?_escape rfl (by decide) cs
  split
  · subst c
    exact units?_escape rfl (by decide) cs
  split
  · rename_i h
    obtain rfl : c = '\x08' := Char.toNat_inj.mp h
    exact units?_escape rfl (by decide) cs
  split
  · rename_i h
    obtain rfl : c = '\x0c' := Char.toNat_inj.mp h
    exact units?_escape rfl (by decide) cs
  split
  · rename_i h
    exact units?_control h cs
  · rename_i hquote hbackslash _ _ _ _ _ hcontrol
    rw [List.singleton_append, units?, if_neg hcontrol]
    · exact hquote
    · intro _ _ _ _ _ h
      exact absurd h hbackslash
    · intro _ _ h
      exact absurd h hbackslash

/-- The characters of a string are no halves of surrogate pairs. -/
theorem ofUnits?_map_toNat (cs : List Char) : ofUnits? (cs.map Char.toNat) = some cs := by
  induction cs with
  | nil => rfl
  | cons c cs ih =>
    have hvalid : c.toNat < 0xd800 ∨ 0xdfff < c.toNat ∧ c.toNat < 0x110000 := c.valid
    have hleading : isLeading c.toNat = false := decide_eq_false (by omega)
    have htrailing : isTrailing c.toNat = false := decide_eq_false (by omega)
    rw [List.map_cons, ofUnits?.eq_def]
    simp [hleading, htrailing, ih]

/-- A string is read from its quoted text. -/
theorem text?_quotedText (s : String) (rest : List Char) :
    text? (s.toList.flatMap escapedChar ++ '"' :: rest) = some (some s, rest) := by
  have hunits (cs : List Char) :
      units? (cs.flatMap escapedChar ++ '"' :: rest) = some (cs.map Char.toNat, rest) := by
    induction cs with
    | nil => rfl
    | cons c cs ih =>
      rw [List.flatMap_cons, List.append_assoc, units?_escapedChar, ih]
      rfl
  simp [text?, hunits, ofUnits?_map_toNat]

/-! ## Numbers -/

theorem digits?_append {ds rest : List Char} (hne : ds ≠ []) (hds : ∀ c ∈ ds, c.isDigit = true)
    (hrest : Ends rest) : digits? (ds ++ rest) = some (ds, rest) := by
  have hhead : ∀ c ∈ rest.head?, c.isDigit = false := fun c hc => (hrest c hc).1
  have htake : rest.takeWhile Char.isDigit = [] := by
    cases rest with
    | nil => rfl
    | cons c rest => exact List.takeWhile_cons_of_neg (by rw [hhead c rfl]; nofun)
  have hdrop : rest.dropWhile Char.isDigit = rest := by
    cases rest with
    | nil => rfl
    | cons c rest => exact List.dropWhile_cons_of_neg (by rw [hhead c rfl]; nofun)
  rw [digits?, List.takeWhile_append_of_pos hds, List.dropWhile_append_of_pos hds, htake, hdrop,
    List.append_nil, if_neg hne]

/-- Nothing follows the digits of a number. -/
theorem numberTail?_eq {rest : List Char} (h : Ends rest) : numberTail? rest = some (true, rest) := by
  have hfraction : skipFraction? rest = some rest := by
    rw [skipFraction?]
    rintro cs rfl
    exact (h '.' rfl).2.1 rfl
  have hexponent : skipExponent? rest = some rest := by
    rw [skipExponent?]
    · rintro cs rfl
      exact (h 'e' rfl).2.2.1 rfl
    · rintro cs rfl
      exact (h 'E' rfl).2.2.2 rfl
  simp [numberTail?, hfraction, hexponent]

theorem exists_toDigits_eq_cons (n : Nat) :
    ∃ d ds, Nat.toDigits 10 n = d :: ds ∧ d.isDigit = true := by
  obtain ⟨d, ds, hdigits⟩ := List.exists_cons_of_ne_nil (Nat.toDigits_ne_nil (b := 10) (n := n))
  exact ⟨d, ds, hdigits, isDigit_of_mem_decimal (hdigits ▸ List.mem_cons_self)⟩

/-- A natural number is read from its digits. -/
theorem number?_toDigits (n : Nat) {rest : List Char} (h : Ends rest) :
    number? (Nat.toDigits 10 n ++ rest) = some (.natural n, rest) := by
  have hdigits : digits? (Nat.toDigits 10 n ++ rest) = some (Nat.toDigits 10 n, rest) :=
    digits?_append Nat.toDigits_ne_nil (fun c => isDigit_of_mem_decimal) h
  have hinteger : integer? (Nat.toDigits 10 n ++ rest) = some (Nat.toDigits 10 n, rest) := by
    rw [integer?, hdigits, Option.filter_some, if_pos]
    exact decide_eq_true length_decimal_of_head?
  rw [number?]
  · simp [hinteger, numberTail?_eq h]
  · intro cs hminus
    obtain ⟨d, ds, hds, hd⟩ := exists_toDigits_eq_cons n
    rw [hds] at hminus
    obtain rfl := (List.cons.inj hminus).1
    exact absurd hd (by decide)

/-! ## Values -/

/-- A value's text starts with a character that is neither a blank nor the end of a list. -/
theorem Spells.exists_cons {j : Json} {cs : List Char} (h : Spells j cs) :
    ∃ c cs', cs = c :: cs' ∧ isBlank c = false ∧ c ≠ ']' := by
  cases h with
  | null => exact ⟨_, _, rfl, by decide⟩
  | bool b => cases b <;> exact ⟨_, _, rfl, by decide⟩
  | natural n =>
    obtain ⟨d, ds, hds, hd⟩ := exists_toDigits_eq_cons n
    refine ⟨d, ds, hds, decide_eq_false ?_, ?_⟩
    · rintro (rfl | rfl | rfl | rfl) <;> exact absurd hd (by decide)
    · rintro rfl
      exact absurd hd (by decide)
  | text s => exact ⟨_, _, rfl, by decide⟩
  | noItem => exact ⟨_, _, rfl, by decide⟩
  | items _ => exact ⟨_, _, rfl, by decide⟩
  | noMember => exact ⟨_, _, rfl, by decide⟩
  | members _ => exact ⟨_, _, rfl, by decide⟩

theorem value?_append {bs : List Char} (h : Blanks bs) (fuel : Nat) (cs : List Char) :
    value? fuel (bs ++ cs) = value? fuel cs := by
  cases fuel with
  | zero => rfl
  | succ fuel => rw [value?, value?, skipBlanks_append h]

theorem value?_toDigits (fuel n : Nat) {rest : List Char} (h : Ends rest) :
    value? (fuel + 1) (Nat.toDigits 10 n ++ rest) = some (.natural n, rest) := by
  have hnumber := number?_toDigits n h
  obtain ⟨d, ds, hds, hd⟩ := exists_toDigits_eq_cons n
  obtain ⟨c, cs, hcons, hblank, -⟩ := (Spells.natural n).exists_cons
  obtain ⟨rfl, rfl⟩ := List.cons.inj (hds.symm.trans hcons)
  rw [hds, List.cons_append] at hnumber ⊢
  rw [value?, skipBlanks_cons hblank]
  split
  case h_7 => exact hnumber
  -- the other cases start with a character that is no digit
  all_goals
    rename_i heq
    obtain rfl := (List.cons.inj heq).1
    exact absurd hd (by decide)

theorem value?_quotedText (fuel : Nat) (s : String) (rest : List Char) :
    value? (fuel + 1) (quotedText (some s) ++ rest) = some (.text s, rest) := by
  have hquoted : quotedText (some s) ++ rest = '"' :: (s.toList.flatMap escapedChar ++ '"' :: rest) := by
    simp [quotedText]
  rw [hquoted, value?, skipBlanks_cons (by decide)]
  simp only [text?_quotedText]
  rfl

/-- With this fuel, a text of at most as many characters is read for what it spells. -/
structure Reads (fuel : Nat) : Prop where
  value {j : Json} {cs : List Char} (h : Spells j cs) (hfuel : cs.length ≤ fuel) {rest : List Char}
    (hrest : Ends rest) : value? fuel (cs ++ rest) = some (j, rest)
  items {items : List Json} {cs : List Char} (h : SpellsItems items cs) (hfuel : cs.length ≤ fuel)
    (rest : List Char) : items? fuel (cs ++ rest) = some (items, rest)
  members {members : List (JsonText × Json)} {cs : List Char} (h : SpellsMembers members cs)
    (hfuel : cs.length ≤ fuel) (rest : List Char) : members? fuel (cs ++ rest) = some (members, rest)

variable {fuel : Nat}

/-- The first item does not start with the end of the list. -/
theorem SpellsItems.skipBlanks_ne {items : List Json} {cs : List Char} (h : SpellsItems items cs)
    (rest rest' : List Char) : skipBlanks (cs ++ rest) ≠ ']' :: rest' := by
  cases h with
  | last hbefore h _ =>
    obtain ⟨c, cs', rfl, hblank, hend⟩ := h.exists_cons
    rw [List.append_assoc, List.cons_append, List.cons_append, skipBlanks_append_cons hbefore hblank]
    exact fun heq => hend (List.cons.inj heq).1
  | next hbefore h _ _ =>
    obtain ⟨c, cs', rfl, hblank, hend⟩ := h.exists_cons
    rw [List.append_assoc, List.cons_append, List.cons_append, skipBlanks_append_cons hbefore hblank]
    exact fun heq => hend (List.cons.inj heq).1

/-- The first member does not start with the end of the object. -/
theorem SpellsMembers.skipBlanks_ne {members : List (JsonText × Json)} {cs : List Char}
    (h : SpellsMembers members cs) (rest rest' : List Char) : skipBlanks (cs ++ rest) ≠ '\x7d' :: rest' := by
  cases h with
  | last hbefore _ _ _ =>
    rw [List.append_assoc, quotedText, List.cons_append, List.cons_append, List.cons_append,
      skipBlanks_append_cons hbefore (by decide)]
    exact fun heq => absurd (List.cons.inj heq).1 (by decide)
  | next hbefore _ _ _ _ =>
    rw [List.append_assoc, quotedText, List.cons_append, List.cons_append, List.cons_append,
      skipBlanks_append_cons hbefore (by decide)]
    exact fun heq => absurd (List.cons.inj heq).1 (by decide)

theorem Reads.value_succ (ih : Reads fuel) {j : Json} {cs : List Char} (h : Spells j cs)
    (hfuel : cs.length ≤ fuel + 1) {rest : List Char} (hrest : Ends rest) :
    value? (fuel + 1) (cs ++ rest) = some (j, rest) := by
  cases h with
  | null => rfl
  | bool b => cases b <;> rfl
  | natural n => exact value?_toDigits fuel n hrest
  | text s => exact value?_quotedText fuel s rest
  | noItem => rfl
  | @items items cs h =>
    have hitems := ih.items h (Nat.le_of_succ_le_succ hfuel) rest
    rw [List.cons_append, value?, skipBlanks_cons (by decide)]
    simp only [hitems]
    split
    · rename_i heq
      exact absurd heq (h.skipBlanks_ne rest _)
    · rfl
  | noMember => rfl
  | @members members cs h =>
    have hmembers := ih.members h (Nat.le_of_succ_le_succ hfuel) rest
    rw [List.cons_append, value?, skipBlanks_cons (by decide)]
    simp only [hmembers]
    split
    · rename_i heq
      exact absurd heq (h.skipBlanks_ne rest _)
    · rfl

theorem Reads.items_succ (ih : Reads fuel) {items : List Json} {cs : List Char}
    (h : SpellsItems items cs) (hfuel : cs.length ≤ fuel + 1) (rest : List Char) :
    items? (fuel + 1) (cs ++ rest) = some (items, rest) := by
  cases h with
  | @last item before cs after hbefore h hafter =>
    simp only [List.length_append, List.length_cons, List.length_nil] at hfuel
    have hvalue := ih.value h (by omega) (ends_append hafter (c := ']') (by decide) rest)
    simp only [List.append_assoc, List.singleton_append]
    rw [items?, value?_append hbefore, hvalue]
    simp only [skipBlanks_append_cons hafter (c := ']') (by decide)]
  | @next item items before cs after cs' hbefore h hafter hitems =>
    simp only [List.length_append, List.length_cons] at hfuel
    have hvalue := ih.value h (by omega) (ends_append hafter (c := ',') (by decide) (cs' ++ rest))
    have hrest := ih.items hitems (by omega) rest
    simp only [List.append_assoc, List.cons_append]
    rw [items?, value?_append hbefore, hvalue]
    simp only [skipBlanks_append_cons hafter (c := ',') (by decide), hrest]
    rfl

/-- What stands before a value is read as its name, and what stands behind it says if members follow. -/
theorem members?_quotedText (name : String) {before between cs rest cs' : List Char} {value : Json}
    (hbefore : Blanks before) (hbetween : Blanks between) (hvalue : value? fuel cs = some (value, rest)) :
    (skipBlanks rest = ',' :: cs' →
      members? (fuel + 1) (before ++ (quotedText (some name) ++ ':' :: (between ++ cs))) =
        (members? fuel cs').map fun (members, rest) => ((some name, value) :: members, rest)) ∧
    (skipBlanks rest = '\x7d' :: cs' →
      members? (fuel + 1) (before ++ (quotedText (some name) ++ ':' :: (between ++ cs))) =
        some ([(some name, value)], cs')) := by
  have hquoted (cs : List Char) :
      quotedText (some name) ++ cs = '"' :: (name.toList.flatMap escapedChar ++ '"' :: cs) := by
    simp [quotedText]
  rw [members?, hquoted, skipBlanks_append_cons hbefore (by decide)]
  simp only [text?_quotedText, skipBlanks_cons (c := ':') (by decide), value?_append hbetween, hvalue]
  constructor
  · intro hcomma
    rw [hcomma]
    rfl
  · intro hbrace
    rw [hbrace]
    rfl

theorem Reads.members_succ (ih : Reads fuel) {members : List (JsonText × Json)} {cs : List Char}
    (h : SpellsMembers members cs) (hfuel : cs.length ≤ fuel + 1) (rest : List Char) :
    members? (fuel + 1) (cs ++ rest) = some (members, rest) := by
  cases h with
  | @last name value before between cs after hbefore hbetween h hafter =>
    simp only [List.length_append, List.length_cons, List.length_nil] at hfuel
    have hvalue := ih.value h (by omega) (ends_append hafter (c := '\x7d') (by decide) rest)
    simp only [List.append_assoc, List.cons_append, List.nil_append]
    exact (members?_quotedText name hbefore hbetween hvalue).2 (skipBlanks_append_cons hafter (by decide) rest)
  | @next name value members before between cs after cs' hbefore hbetween h hafter hmembers =>
    simp only [List.length_append, List.length_cons] at hfuel
    have hvalue := ih.value h (by omega) (ends_append hafter (c := ',') (by decide) (cs' ++ rest))
    have hrest := ih.members hmembers (by omega) rest
    simp only [List.append_assoc, List.cons_append]
    rw [(members?_quotedText name hbefore hbetween hvalue).1
      (skipBlanks_append_cons hafter (by decide) (cs' ++ rest)), hrest]
    rfl

/-- One unit of fuel for each character is enough. -/
theorem reads (fuel : Nat) : Reads fuel := by
  induction fuel with
  | zero =>
    refine ⟨fun {j cs} h hfuel => ?_, fun {items cs} h hfuel => ?_, fun {members cs} h hfuel => ?_⟩
    · obtain ⟨c, cs, rfl, -⟩ := h.exists_cons
      exact absurd hfuel (Nat.not_succ_le_zero _)
    · cases h <;> simp at hfuel
    · cases h <;> simp at hfuel
  | succ fuel ih => exact ⟨ih.value_succ, ih.items_succ, ih.members_succ⟩

/-- Every text of a value is read as that value. -/
theorem parse?_of_spells {j : Json} {cs : List Char} (h : Spells j cs) :
    parse? (String.ofList cs) = some j := by
  have hvalue := (reads (2 * cs.length + 2)).value h (by omega) ends_nil
  rw [List.append_nil] at hvalue
  rw [parse?, String.toList_ofList, parseChars?, hvalue]
  rfl

/-! ## What is written -/

theorem blanks_nil : Blanks [] := nofun

theorem blanks_newline (level : Nat) : Blanks (newline level) := by
  intro c hc
  obtain rfl | hc := List.mem_cons.mp hc
  · rfl
  · rw [(List.mem_replicate.mp hc).2]
    rfl

theorem blanks_space : Blanks [' '] := by
  intro c hc
  rw [List.mem_singleton.mp hc]
  rfl

theorem compactItems_spells {item : Json} {items : List Json}
    (h : ∀ j ∈ item :: items, Spells j j.compact) :
    SpellsItems (item :: items) (compactItems (item :: items) ++ [']']) := by
  induction items generalizing item with
  | nil => simpa [compactItems] using SpellsItems.last blanks_nil (h item List.mem_cons_self) blanks_nil
  | cons next items ih =>
    rw [List.forall_mem_cons] at h
    simpa [compactItems] using SpellsItems.next blanks_nil h.1 blanks_nil (ih h.2)

theorem compactMembers_spells {first : String × Json} {members : List (String × Json)}
    (h : ∀ m ∈ first :: members, Spells m.2 m.2.compact) :
    SpellsMembers ((first :: members).map fun (name, value) => (some name, value))
      (compactMembers ((first :: members).map fun (name, value) => (some name, value)) ++ ['\x7d']) := by
  obtain ⟨name, value⟩ := first
  rw [List.forall_mem_cons] at h
  induction members generalizing name value with
  | nil =>
    have hlast : SpellsMembers [(some name, value)] _ := .last blanks_nil blanks_nil h.1 blanks_nil
    simpa [compactMembers] using hlast
  | cons next members ih =>
    have hnext : SpellsMembers ((some name, value) :: _) _ :=
      .next blanks_nil blanks_nil h.1 blanks_nil (ih next.1 next.2 (List.forall_mem_cons.mp h.2))
    simpa [compactMembers] using hnext

/-- The compact text is one of the value's. -/
theorem compact_spells {j : Json} (h : IsPlain j) : Spells j j.compact := by
  induction h with
  | null => exact .null
  | bool b => exact .bool b
  | natural n => exact .natural n
  | text s => exact .text s
  | @list items _ ih =>
    cases items with
    | nil => exact .noItem
    | cons item items => exact .items (compactItems_spells ih)
  | @record members _ ih =>
    cases members with
    | nil => exact .noMember
    | cons m members => exact .members (compactMembers_spells ih)

theorem prettyItems_spells {level level' : Nat} {item : Json} {items : List Json}
    (h : ∀ j ∈ item :: items, Spells j (j.prettyAt level)) :
    SpellsItems (item :: items) (newline level ++ item.prettyAt level ++ prettyItems level items ++
      newline level' ++ [']']) := by
  induction items generalizing item with
  | nil =>
    have hlast := SpellsItems.last (blanks_newline level) (h item List.mem_cons_self) (blanks_newline level')
    simpa [prettyItems] using hlast
  | cons next items ih =>
    rw [List.forall_mem_cons] at h
    simpa [prettyItems] using SpellsItems.next (blanks_newline level) h.1 blanks_nil (ih h.2)

theorem prettyMembers_spells {level level' : Nat} {first : String × Json}
    {members : List (String × Json)} (h : ∀ m ∈ first :: members, Spells m.2 (m.2.prettyAt level)) :
    SpellsMembers ((first :: members).map fun (name, value) => (some name, value))
      (newline level ++ quotedText (some first.1) ++ ':' :: ' ' :: first.2.prettyAt level ++
        prettyMembers level (members.map fun (name, value) => (some name, value)) ++ newline level' ++
        ['\x7d']) := by
  obtain ⟨name, value⟩ := first
  rw [List.forall_mem_cons] at h
  induction members generalizing name value with
  | nil =>
    have hlast : SpellsMembers [(some name, value)] _ :=
      .last (blanks_newline level) blanks_space h.1 (blanks_newline level')
    simpa [prettyMembers] using hlast
  | cons next members ih =>
    have hnext : SpellsMembers ((some name, value) :: _) _ :=
      .next (blanks_newline level) blanks_space h.1 blanks_nil
        (ih next.1 next.2 (List.forall_mem_cons.mp h.2))
    simpa [prettyMembers] using hnext

/-- The text over lines is one of the value's, whatever the level. -/
theorem prettyAt_spells {j : Json} (h : IsPlain j) (level : Nat) : Spells j (j.prettyAt level) := by
  induction h generalizing level with
  | null => exact .null
  | bool b => exact .bool b
  | natural n => exact .natural n
  | text s => exact .text s
  | @list items _ ih =>
    cases items with
    | nil => exact .noItem
    | cons item items => exact .items (prettyItems_spells fun j hj => ih j hj _)
  | @record members _ ih =>
    cases members with
    | nil => exact .noMember
    | cons m members => exact .members (prettyMembers_spells fun m hm => ih m hm _)

/-! ## Both together -/

/-- The compact text is read back. -/
theorem parse?_toCompactString {j : Json} (h : IsPlain j) : parse? j.toCompactString = some j :=
  parse?_of_spells (compact_spells h)

/-- The text over lines is read back. -/
theorem parse?_toPrettyString {j : Json} (h : IsPlain j) : parse? j.toPrettyString = some j :=
  parse?_of_spells (prettyAt_spells h 0)

end Manet.Json
