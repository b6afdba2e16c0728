import Manet.Address.Text

/-!
# Addresses are read as they are written

Reading the text of an address of either family gives the address back
(`Address.ofString?_toString`): dotted quads, groups with and without a gap, and IPv6 addresses that
end in a dotted quad. Words joined by a separator come apart again because no digit is a separator;
the gap is found because no word between colons is empty; and it stands for zeros because the run
that the writer leaves out is one of zeros.
-/

namespace Manet

/-- A list is read item by item if every item is read as it is written. -/
theorem mapM_map_eq_some {α β : Type} {write : α → β} {read : β → Option α} {items : List α}
    (h : ∀ a ∈ items, read (write a) = some a) : (items.map write).mapM read = some items := by
  induction items with
  | nil => rfl
  | cons a items ih =>
    rw [List.forall_mem_cons] at h
    rw [List.map_cons, List.mapM_cons, h.1, ih h.2]
    rfl

namespace Text

theorem hexDigit?_digitChar {d : Nat} (h : d < 16) : hexDigit? (Nat.digitChar d) = some d := by
  revert d
  decide

theorem hexNumber?_append_singleton {cs : List Char} {c : Char} {n d : Nat}
    (hcs : hexNumber? cs = some n) (hc : hexDigit? c = some d) :
    hexNumber? (cs ++ [c]) = some (16 * n + d) := by
  obtain ⟨ds, hds, rfl⟩ := Option.map_eq_some_iff.mp hcs
  simp [hexNumber?, hds, hc]

/-- A number is read from its digits. -/
theorem hexNumber?_toDigits (n : Nat) : hexNumber? (Nat.toDigits 16 n) = some n := by
  induction n using Nat.base_induction 16 (by decide) with
  | single d hd =>
    rw [Nat.toDigits_of_lt_base hd]
    simp [hexNumber?, hexDigit?_digitChar hd]
  | digit m d hd hm ih =>
    rw [← Nat.toDigits_append_toDigits (by decide) hm hd, Nat.toDigits_of_lt_base hd]
    exact hexNumber?_append_singleton ih (hexDigit?_digitChar hd)

/-- What has no value as a digit is not among the digits of a number. -/
theorem not_mem_toDigits {c : Char} (hc : hexDigit? c = none) (n : Nat) : c ∉ Nat.toDigits 16 n := by
  intro hmem
  induction n using Nat.base_induction 16 (by decide) with
  | single d hd =>
    rw [Nat.toDigits_of_lt_base hd, List.mem_singleton] at hmem
    rw [hmem, hexDigit?_digitChar hd] at hc
    cases hc
  | digit m d hd hm ih =>
    rw [← Nat.toDigits_append_toDigits (by decide) hm hd, List.mem_append] at hmem
    refine hmem.elim ih fun hmem => ?_
    rw [Nat.toDigits_of_lt_base hd, List.mem_singleton] at hmem
    rw [hmem, hexDigit?_digitChar hd] at hc
    cases hc

end Text

/-! ## Decimal digits -/

theorem isDigit_of_mem_decimal {n : Nat} {c : Char} (h : c ∈ Nat.toDigits 10 n) : c.isDigit = true :=
  Nat.isDigit_of_mem_toDigits (by decide) (by decide) h

/-- A number is written without leading zeros. -/
theorem length_decimal_of_head? {n : Nat} (h : (Nat.toDigits 10 n).head? = some '0') :
    (Nat.toDigits 10 n).length = 1 := by
  induction n using Nat.base_induction 10 (by decide) with
  | single d hd => rw [Nat.toDigits_of_lt_base hd, List.length_singleton]
  | digit m d hd hm ih =>
    -- the digits of `m` would be the single digit zero, and `m` is not zero
    have hhead : (Nat.toDigits 10 m).head? = some '0' := by
      rw [← Nat.toDigits_append_toDigits (by decide) hm hd] at h
      cases hdigits : Nat.toDigits 10 m with
      | nil => exact absurd hdigits Nat.toDigits_ne_nil
      | cons c cs => rwa [hdigits] at h
    obtain ⟨c, hc⟩ := List.length_eq_one_iff.mp (ih hhead)
    rw [hc, List.head?_cons, Option.some.injEq] at hhead
    have hzero := Nat.ofDigitChars_ten_toDigits (n := m)
    rw [hc, hhead] at hzero
    exact absurd hzero (Nat.ne_of_lt hm)

namespace Address

/-! ## Dotted quads -/

theorem decimalOctet?_toDigits (b : UInt8) :
    decimalOctet? (Nat.toDigits 10 b.toNat) = some b.toNat := by
  have hb : b.toNat ≤ 255 := Nat.le_of_lt_succ b.toNat_lt
  have hlength : (Nat.toDigits 10 b.toNat).length ≤ 3 :=
    (Nat.length_toDigits_le_iff (by decide) (by decide)).mpr (by omega)
  rw [decimalOctet?, Nat.ofDigitChars_ten_toDigits, if_pos]
  exact ⟨Nat.toDigits_ne_nil, hlength, List.all_eq_true.mpr fun c hc => isDigit_of_mem_decimal hc,
    length_decimal_of_head?, hb⟩

/-- A dotted quad spells the last four octets of a number. -/
theorem dottedQuad?_dottedQuad (n : Nat) : dottedQuad? (dottedQuad n) = some (n % 4294967296) := by
  have hwords : ∀ w ∈ (Octets.ofNat 4 n).map fun b => Nat.toDigits 10 b.toNat, '.' ∉ w := by
    intro w hw hdot
    obtain ⟨b, -, rfl⟩ := List.mem_map.mp hw
    exact absurd (isDigit_of_mem_decimal hdot) (by decide)
  have hread : ((Octets.ofNat 4 n).map fun b => Nat.toDigits 10 b.toNat).mapM decimalOctet? =
      some ((Octets.ofNat 4 n).map UInt8.toNat) := by
    have hmap : (Octets.ofNat 4 n).map (fun b => Nat.toDigits 10 b.toNat) =
        ((Octets.ofNat 4 n).map UInt8.toNat).map (Nat.toDigits 10) := by
      rw [List.map_map]
      rfl
    rw [hmap]
    refine mapM_map_eq_some fun a ha => ?_
    obtain ⟨b, -, rfl⟩ := List.mem_map.mp ha
    exact decimalOctet?_toDigits b
  have hvalue := Octets.toNat_ofNat 4 n
  rw [dottedQuad?, dottedQuad, List.splitOn_intercalate '.' hwords (by simp [Octets.ofNat]), hread]
  simp only [Octets.ofNat, List.nil_append, List.cons_append, List.map_cons, List.map_nil, Octets.toNat,
    List.foldl_cons, List.foldl_nil, Octets.capacity] at hvalue ⊢
  rw [Option.some.injEq]
  omega

theorem colon_not_mem_dottedQuad (n : Nat) : ':' ∉ dottedQuad n := by
  have hdigits (n : Nat) : ':' ∉ Nat.toDigits 10 n := fun h =>
    absurd (isDigit_of_mem_decimal h) (by decide)
  simp [dottedQuad, Octets.ofNat, List.intercalate_cons_cons, hdigits]

/-! ## Groups -/

theorem hexGroup?_toDigits {n : Nat} (h : n < 65536) : hexGroup? (Nat.toDigits 16 n) = some n := by
  rw [hexGroup?, if_pos, Text.hexNumber?_toDigits]
  exact ⟨Nat.toDigits_ne_nil, (Nat.length_toDigits_le_iff (by decide) (by decide)).mpr h⟩

/-- A word without dots is no dotted quad. -/
theorem dottedQuad?_eq_none {cs : List Char} (h : '.' ∉ cs) : dottedQuad? cs = none := by
  rw [dottedQuad?, List.splitOn_eq_singleton h]
  cases hcs : decimalOctet? cs <;> simp [hcs]

theorem groups?_map (quad : Bool) {ns : List Nat} (h : ∀ n ∈ ns, n < 65536) :
    groups? quad (ns.map (Nat.toDigits 16)) = some ns := by
  induction ns with
  | nil => rfl
  | cons n ns ih =>
    rw [List.forall_mem_cons] at h
    cases ns with
    | nil =>
      have hquad := dottedQuad?_eq_none (Text.not_mem_toDigits (c := '.') rfl n)
      rw [List.map_singleton, groups?, hexGroup?_toDigits h.1]
      · rfl
      · simp [hquad]
    | cons m ns =>
      rw [List.map_cons, groups?, hexGroup?_toDigits h.1, ih h.2]
      · rfl
      · nofun

theorem joinGroups_ne_nil (n : Nat) (ns : List Nat) : joinGroups (n :: ns) ≠ [] := by
  rw [joinGroups, List.map_cons]
  cases ns <;> simp [List.intercalate_cons_cons, Nat.toDigits_ne_nil]

theorem splitOn_joinGroups {ns : List Nat} (h : ns ≠ []) :
    (joinGroups ns).splitOn ':' = ns.map (Nat.toDigits 16) := by
  refine List.splitOn_intercalate ':' (fun w hw => ?_) (by simpa using h)
  obtain ⟨n, -, rfl⟩ := List.mem_map.mp hw
  exact Text.not_mem_toDigits rfl n

/-- Joined groups come apart again, also when there is none. -/
theorem colonGroups?_joinGroups (quad : Bool) {ns : List Nat} (h : ∀ n ∈ ns, n < 65536) :
    colonGroups? quad (joinGroups ns) = some ns := by
  cases ns with
  | nil => rfl
  | cons n ns =>
    rw [colonGroups?, if_neg (joinGroups_ne_nil n ns), splitOn_joinGroups (List.cons_ne_nil _ _), groups?_map quad h]

/-! ## The gap -/

/-- No gap starts at a character that is no colon. -/
theorem splitGap_cons {c : Char} (h : c ≠ ':') (cs : List Char) :
    splitGap (c :: cs) = (splitGap cs).map fun (front, back) => (c :: front, back) := by
  rw [splitGap]
  intro cs' hc
  exact absurd hc h

/-- No gap starts at a colon that another character follows. -/
theorem splitGap_colon_cons {c : Char} (h : c ≠ ':') (cs : List Char) :
    splitGap (':' :: c :: cs) = (splitGap (c :: cs)).map fun (front, back) => (':' :: front, back) := by
  rw [splitGap]
  intro cs' _ hc
  exact absurd (List.cons.inj hc).1 h

theorem splitGap_append {w : List Char} (h : ':' ∉ w) (cs : List Char) :
    splitGap (w ++ cs) = (splitGap cs).map fun (front, back) => (w ++ front, back) := by
  induction w with
  | nil => simp
  | cons c w ih =>
    rw [List.mem_cons, not_or] at h
    rw [List.cons_append, splitGap_cons (Ne.symm h.1), ih h.2, Option.map_map]
    rfl

/-- Joined groups have no gap: one is looked for behind them. -/
theorem splitGap_joinGroups (ns : List Nat) (cs : List Char) :
    splitGap (joinGroups ns ++ cs) =
      (splitGap cs).map fun (front, back) => (joinGroups ns ++ front, back) := by
  induction ns with
  | nil => simp [joinGroups]
  | cons n ns ih =>
    have hcolon := Text.not_mem_toDigits (c := ':') rfl
    cases ns with
    | nil =>
      rw [joinGroups, List.map_singleton, List.intercalate_singleton]
      exact splitGap_append (hcolon n) cs
    | cons m ns =>
      have hjoin : joinGroups (n :: m :: ns) = Nat.toDigits 16 n ++ ':' :: joinGroups (m :: ns) := by
        simp [joinGroups, List.intercalate_cons_cons]
      -- what follows the colon is a digit of the next group
      obtain ⟨c, w, hw⟩ := List.exists_cons_of_ne_nil (joinGroups_ne_nil m ns)
      have hc : c ≠ ':' := by
        rintro rfl
        have hsplit := splitOn_joinGroups (List.cons_ne_nil m ns)
        rw [hw, List.map_cons, List.splitOn_cons_eq_if_modifyHead, if_pos (by simp)] at hsplit
        exact Nat.toDigits_ne_nil (List.cons.inj hsplit).1.symm
      rw [hjoin, List.append_assoc, splitGap_append (hcolon n), hw, List.cons_append, List.cons_append,
        splitGap_colon_cons hc, ← List.cons_append, ← hw, ih, Option.map_map, Option.map_map]
      congr 1
      funext p
      simp

/-! ## Runs of zeros -/

theorem eq_replicate_append_drop {groups : List Nat} {run : Nat} (h : run ≤ zeroRun groups) :
    groups = List.replicate run 0 ++ groups.drop run := by
  induction groups generalizing run with
  | nil =>
    obtain rfl : run = 0 := Nat.le_zero.mp h
    rfl
  | cons g groups ih =>
    cases run with
    | zero => rfl
    | succ run =>
      rw [zeroRun, List.takeWhile_cons] at h
      split at h
      · rename_i hg
        rw [List.length_cons] at h
        rw [List.replicate_succ, List.cons_append, List.drop_succ_cons,
          ← ih (Nat.le_of_succ_le_succ h), of_decide_eq_true hg]
      · exact absurd h (Nat.not_succ_le_zero _)

/-- The run that is found is one of zeros. -/
theorem longestZeroRun_le (groups : List Nat) :
    (longestZeroRun groups).2 ≤ zeroRun (groups.drop (longestZeroRun groups).1) := by
  rw [longestZeroRun]
  refine List.foldlRecOn (motive := fun best : Nat × Nat => best.2 ≤ zeroRun (groups.drop best.1)) _ _
    (Nat.zero_le _) fun best hbest i _ => ?_
  dsimp only
  split
  · exact Nat.le_refl _
  · exact hbest

/-- Leaving out the run that is found loses nothing. -/
theorem eq_take_append_drop_longestZeroRun (groups : List Nat) :
    groups = groups.take (longestZeroRun groups).1 ++ (List.replicate (longestZeroRun groups).2 0 ++
      groups.drop ((longestZeroRun groups).1 + (longestZeroRun groups).2)) := by
  have hdrop := eq_replicate_append_drop (longestZeroRun_le groups)
  rw [List.drop_drop] at hdrop
  rw [← hdrop, List.take_append_drop]

/-! ## IPv6 addresses -/

theorem length_groupsOf (n : Nat) : (groupsOf n).length = 8 := rfl

theorem lt_of_mem_groupsOf {n g : Nat} (h : g ∈ groupsOf n) : g < 65536 := by
  obtain ⟨i, -, rfl⟩ := List.mem_map.mp h
  exact Nat.mod_lt _ (by decide)

/-- The number that groups spell. -/
theorem foldl_groupsOf {n : Nat} (h : n < Octets.capacity 16) :
    (groupsOf n).foldl (fun n g => 65536 * n + g) 0 = n := by
  -- what is read so far are the bits from the last group up
  have step (k : Nat) : 65536 * n >>> (k + 16) + n >>> k % 65536 = n >>> k := by
    rw [Nat.shiftRight_add, Nat.shiftRight_eq_div_pow (n >>> k)]
    exact Nat.div_add_mod (n >>> k) 65536
  have hfirst : n >>> 128 = 0 := by
    rw [Nat.shiftRight_eq_div_pow]
    exact Nat.div_eq_of_lt h
  have hstart := step 112
  rw [hfirst] at hstart
  change (65536 * (65536 * (65536 * (65536 * (65536 * (65536 * (65536 * (65536 * 0 + n >>> 112 % 65536) +
    n >>> 96 % 65536) + n >>> 80 % 65536) + n >>> 64 % 65536) + n >>> 48 % 65536) +
    n >>> 32 % 65536) + n >>> 16 % 65536) + n >>> 0 % 65536) = n
  rw [hstart, step 96, step 80, step 64, step 48, step 32, step 16, step 0, Nat.shiftRight_zero]

/-- Groups without a gap are read as they are. -/
theorem eightGroups?_joinGroups {groups : List Nat} (hlength : groups.length = 8)
    (hgroups : ∀ g ∈ groups, g < 65536) : eightGroups? (joinGroups groups) = some groups := by
  have hgap := splitGap_joinGroups groups []
  rw [List.append_nil] at hgap
  rw [eightGroups?, hgap]
  simp [splitGap, colonGroups?_joinGroups true hgroups, hlength]

/-- Groups with a gap are read with zeros in its place. -/
theorem eightGroups?_gap {front back : List Nat} {run : Nat}
    (hlength : front.length + (run + back.length) = 8) (hrun : 0 < run)
    (hfront : ∀ g ∈ front, g < 65536) (hback : ∀ g ∈ back, g < 65536) :
    eightGroups? (joinGroups front ++ "::".toList ++ joinGroups back) =
      some (front ++ (List.replicate run 0 ++ back)) := by
  have hgap : splitGap (joinGroups front ++ "::".toList ++ joinGroups back) =
      some (joinGroups front, joinGroups back) := by
    rw [List.append_assoc, splitGap_joinGroups]
    simp [splitGap]
  have hle : front.length + back.length ≤ 7 := by omega
  have hzeros : 8 - front.length - back.length = run := by omega
  rw [eightGroups?, hgap]
  simp [colonGroups?_joinGroups false hfront, colonGroups?_joinGroups true hback, hle, hzeros]

/-- The groups of an address with a dotted quad at its end. -/
theorem eightGroups?_mapped (n : Nat) :
    eightGroups? ("::ffff:".toList ++ dottedQuad n) =
      some [0, 0, 0, 0, 0, 0xffff, n % 4294967296 / 65536, n % 4294967296 % 65536] := by
  have hgap : splitGap ("::ffff:".toList ++ dottedQuad n) = some ([], "ffff:".toList ++ dottedQuad n) := rfl
  have hsplit : ("ffff:".toList ++ dottedQuad n).splitOn ':' = ["ffff".toList, dottedQuad n] := by
    have hjoin : "ffff:".toList ++ dottedQuad n = [':'].intercalate ["ffff".toList, dottedQuad n] := by
      simp [List.intercalate_cons_cons]
    rw [hjoin, List.splitOn_intercalate ':' (fun w hw => ?_) (List.cons_ne_nil _ _)]
    simp only [List.mem_cons, List.not_mem_nil, or_false] at hw
    obtain rfl | rfl := hw
    · decide
    · exact colon_not_mem_dottedQuad n
  have hgroups : groups? true ["ffff".toList, dottedQuad n] =
      some [0xffff, n % 4294967296 / 65536, n % 4294967296 % 65536] := by
    have hgroup : hexGroup? "ffff".toList = some 0xffff := by decide
    have hquad : groups? true [dottedQuad n] = some [n % 4294967296 / 65536, n % 4294967296 % 65536] := by
      simp [groups?, dottedQuad?_dottedQuad]
    rw [groups?, hgroup, hquad]
    · rfl
    · nofun
  rw [eightGroups?, hgap]
  simp only [colonGroups?, hsplit, hgroups]
  rfl

/-- The groups that are read from the text of a number spell it. -/
theorem eightGroups?_sixteenOctets {n : Nat} (h : n < Octets.capacity 16) :
    (eightGroups? (sixteenOctets n)).map (·.foldl (fun n g => 65536 * n + g) 0) = some n := by
  rw [sixteenOctets]
  split
  · rename_i hmapped
    rw [Nat.shiftRight_eq_div_pow] at hmapped
    simp only [eightGroups?_mapped, Option.map_some, List.foldl_cons, List.foldl_nil, Option.some.injEq]
    omega
  · suffices hread : ∀ cs, cs = _ → eightGroups? cs = some (groupsOf n) by
      rw [hread _ rfl, Option.map_some, foldl_groupsOf h]
    rintro cs rfl
    simp only
    split
    · rename_i hrun
      have hsplit := eq_take_append_drop_longestZeroRun (groupsOf n)
      have hlength := congrArg List.length hsplit
      rw [List.length_append, List.length_append, List.length_replicate, length_groupsOf] at hlength
      rw [eightGroups?_gap hlength.symm (by omega)
        (fun g hg => lt_of_mem_groupsOf (List.mem_of_mem_take hg))
        (fun g hg => lt_of_mem_groupsOf (List.mem_of_mem_drop hg)), ← hsplit]
    · exact eightGroups?_joinGroups (length_groupsOf n) fun g => lt_of_mem_groupsOf

/-! ## Addresses -/

/-- An address is read from its text. -/
theorem ofChars?_toChars {F : Family} (a : Address F) : ofChars? a.toChars = some a := by
  cases F with
  | ipv4 =>
    have hlt : a.toNat < 4294967296 := a.toNat_lt
    rw [toChars, ofChars?, dottedQuad?_dottedQuad, Nat.mod_eq_of_lt hlt, Option.map_some, ofNat_toNat]
  | ipv6 =>
    have hread := eightGroups?_sixteenOctets a.toNat_lt
    obtain ⟨groups, hgroups, hfold⟩ := Option.map_eq_some_iff.mp hread
    rw [toChars, ofChars?, hgroups, Option.map_some, hfold, ofNat_toNat]

/-- An address is read from its string. -/
theorem ofString?_toString {F : Family} (a : Address F) : ofString? a.toString = some a := by
  rw [ofString?, Address.toString, String.toList_ofList, ofChars?_toChars]

end Address

end Manet
