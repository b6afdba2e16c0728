import Manet.Proofs.Acceptance

/-!
# Reading within bounds

`Reading` tells a datagram that is refused from a read past the end of a buffer. `Reading.packet`
reads a datagram octet by octet from buffers that get shorter, through primitives that overrun
wherever a buffer holds less than they take; whether enough is left is asked where the format calls
for it, and nowhere else. `Reading.packet_eq`: it never overruns, and comes to what `Packet.decode`
comes to.
-/

namespace Manet

/-- What reading from a buffer comes to. -/
inductive Reading (α : Type) where
  | done (a : α)
  | refused (e : DecodeError)
  /-- Something was read past the end of the buffer. -/
  | overrun

namespace Reading

variable {α β : Type}

/-- Goes on with what was read. -/
def bind (x : Reading α) (f : α → Reading β) : Reading β :=
  match x with
  | done a => f a
  | refused e => refused e
  | overrun => overrun

instance : Monad Reading where
  pure := done
  bind := bind

/-- A decoder that has no buffer to overrun. -/
def ofExcept : Except DecodeError α → Reading α
  | .ok a => done a
  | .error e => refused e

/-- Reading that fails for one reason only. -/
def ofOption (e : DecodeError) : Option α → Reading α
  | some a => done a
  | none => refused e

@[simp] theorem done_bind (a : α) (f : α → Reading β) : (done a >>= f) = f a := rfl

@[simp] theorem refused_bind (e : DecodeError) (f : α → Reading β) : (refused e >>= f) = refused e := rfl

@[simp] theorem pure_eq_done (a : α) : (pure a : Reading α) = done a := rfl

theorem bind_eq_done {x : Reading α} {f : α → Reading β} {b : β} (h : x >>= f = done b) :
    ∃ a, x = done a ∧ f a = done b := by
  cases x with
  | done a => exact ⟨a, rfl, h⟩
  | refused | overrun => cases h

/-! ## Primitive reads

Each overruns if the buffer holds less than it takes. -/

/-- Takes one octet. -/
def octet : Octets → Reading (UInt8 × Octets)
  | [] => overrun
  | b :: bs => done (b, bs)

/-- Takes a number of two octets. -/
def number (bs : Octets) : Reading (Nat × Octets) := do
  let (high, bs) ← octet bs
  let (low, bs) ← octet bs
  return (Octets.toNat [high, low], bs)

/-- Cuts the buffer after `n` octets. -/
def cut (n : Nat) (bs : Octets) : Reading (Octets × Octets) :=
  match bs.splitFirst n with
  | some p => done p
  | none => overrun

/-- Passes over `n` octets. -/
def skip (n : Nat) (bs : Octets) : Reading Octets := do
  let (_, bs) ← cut n bs
  return bs

/-- Looks at the octet with the given index. -/
def octetAt (i : Nat) (bs : Octets) : Reading UInt8 :=
  match bs[i]? with
  | some b => done b
  | none => overrun

/-- The octets from one index up to another one. -/
def slice (first last : Nat) (bs : Octets) : Reading Octets :=
  if first ≤ last ∧ last ≤ bs.length then done ((bs.take last).drop first) else overrun

@[simp] theorem octet_cons (b : UInt8) (bs : Octets) : octet (b :: bs) = done (b, bs) := rfl

@[simp] theorem number_cons_cons (high low : UInt8) (bs : Octets) :
    number (high :: low :: bs) = done (Octets.toNat [high, low], bs) := rfl

theorem cut_of_splitFirst {n : Nat} {bs front rest : Octets} (h : bs.splitFirst n = some (front, rest)) :
    cut n bs = done (front, rest) := by
  rw [cut, h]

theorem cut_eq_done {n : Nat} {bs front rest : Octets} (h : cut n bs = done (front, rest)) :
    bs.splitFirst n = some (front, rest) := by
  rw [cut] at h
  split at h
  · rename_i p hp
    rw [hp, done.inj h]
  · cases h

/-! ## Loops -/

end Reading

/-- What takes one thing at a time from a buffer, and leaves a shorter one. -/
structure Reader (α : Type) where
  read : Octets → Reading (α × Octets)
  shortens {bs rest : Octets} {a : α} : read bs = .done (a, rest) → rest.length < bs.length

/-- Reads until the buffer is empty. -/
def Reader.readAll {α : Type} (R : Reader α) (bs : Octets) : Reading (List α) :=
  if bs = [] then .done []
  else
    match h : R.read bs with
    | .done (a, rest) =>
      have : rest.length < bs.length := R.shortens h
      do
        let as ← R.readAll rest
        return a :: as
    | .refused e => .refused e
    | .overrun => .overrun
termination_by bs.length

namespace Reader

variable {α : Type} {R : Reader α} {bs rest : Octets} {a : α}

@[simp] theorem readAll_nil : R.readAll [] = .done [] := by
  rw [readAll, if_pos rfl]

theorem readAll_of_done (h : R.read bs = .done (a, rest)) :
    R.readAll bs = R.readAll rest >>= fun as => .done (a :: as) := by
  have hne : bs ≠ [] := fun hnil => by
    have hlt := R.shortens h
    simp [hnil] at hlt
  rw [readAll, if_neg hne]
  split
  next a' rest' h' =>
    cases h.symm.trans h'
    rfl
  next h' => cases h.symm.trans h'
  next h' => cases h.symm.trans h'

theorem readAll_of_refused {e : DecodeError} (hne : bs ≠ []) (h : R.read bs = .refused e) :
    R.readAll bs = .refused e := by
  rw [readAll, if_neg hne]
  split
  next h' => cases h.symm.trans h'
  next h' =>
    cases h.symm.trans h'
    rfl
  next h' => cases h.symm.trans h'

end Reader

namespace Reading

variable {F : Family}

/-- A string of octets is shorter than a header of four, or starts with one. -/
theorem length_lt_four_or (bs : Octets) :
    bs.length < 4 ∨ ∃ b₀ b₁ b₂ b₃ rest, bs = b₀ :: b₁ :: b₂ :: b₃ :: rest := by
  match bs with
  | [] | [_] | [_, _] | [_, _, _] => simp
  | b₀ :: b₁ :: b₂ :: b₃ :: rest => exact .inr ⟨b₀, b₁, b₂, b₃, rest, rfl⟩

/-- What holds of no, one, two and three octets holds of all that are shorter than a header of four. -/
@[elab_as_elim] theorem of_length_lt_four {P : Octets → Prop} {bs : Octets} (h : bs.length < 4) (zero : P [])
    (one : ∀ a, P [a]) (two : ∀ a b, P [a, b]) (three : ∀ a b c, P [a, b, c]) : P bs := by
  match bs with
  | [] => exact zero
  | [a] => exact one a
  | [a, b] => exact two a b
  | [a, b, c] => exact three a b c
  | _ :: _ :: _ :: _ :: rest => exact absurd h (by simp)

/-! ## Addresses -/

/-- Takes one address. -/
def address : Reader (Address F) where
  read bs := do
    let (front, rest) ← cut F.octets bs
    return (Address.ofOctets front, rest)
  shortens h := by
    obtain ⟨⟨front, rest⟩, hcut, h⟩ := bind_eq_done h
    cases h
    exact Octets.length_lt_of_splitFirst F.octets_pos (cut_eq_done hcut)

/-- Reads addresses that fill the buffer of a body of the given kind. -/
def addresses (kind : BodyKind) (bs : Octets) : Reading (List (Address F)) :=
  if bs.length % F.octets ≠ 0 then refused (.malformedBody kind) else address.readAll bs

theorem address_of_splitFirst {bs front rest : Octets} (h : bs.splitFirst F.octets = some (front, rest)) :
    (address : Reader (Address F)).read bs = done (Address.ofOctets front, rest) := by
  simp [address, cut_of_splitFirst h]

/-- Whole addresses are read to the end. -/
theorem readAll_address (e : DecodeError) {bs : Octets} (h : F.octets ∣ bs.length) :
    (address : Reader (Address F)).readAll bs = ofOption e (addressesOfOctets? bs) := by
  fun_induction addressesOfOctets? (F := F) bs with
  | case1 => simp [ofOption]
  | case2 bs hne hnone =>
    have hpos : 0 < bs.length := List.length_pos_iff.mpr hne
    have hlt : bs.length < F.octets := Octets.splitFirst_eq_none_iff.mp hnone
    exact absurd (Nat.le_of_dvd hpos h) (Nat.not_le.mpr hlt)
  | case3 bs hne front rest hcut hlt ih =>
    have hlen : rest.length + F.octets = bs.length := Octets.length_of_splitFirst hcut
    have hrest : F.octets ∣ rest.length := by
      rw [← hlen] at h
      exact (Nat.dvd_add_left (Nat.dvd_refl _)).mp h
    rw [Reader.readAll_of_done (address_of_splitFirst hcut), ih hrest]
    cases addressesOfOctets? (F := F) rest <;> simp [ofOption]

theorem octets_dvd_of_addressesOfOctets? {bs : Octets} {as : List (Address F)}
    (h : addressesOfOctets? bs = some as) : F.octets ∣ bs.length := by
  rw [addressesOfOctets?_eq_some_iff] at h
  rw [h, length_addressesToOctets, addressesSize]
  exact Nat.dvd_mul_left ..

theorem addresses_eq (kind : BodyKind) (bs : Octets) :
    addresses kind bs = ofOption (.malformedBody kind) (addressesOfOctets? (F := F) bs) := by
  rw [addresses]
  split
  next h =>
    have hnone : addressesOfOctets? (F := F) bs = none := by
      rw [Option.eq_none_iff_forall_ne_some]
      intro as has
      exact h (Nat.mod_eq_zero_of_dvd (octets_dvd_of_addressesOfOctets? has))
    rw [hnone, ofOption]
  next h => exact readAll_address _ (Nat.dvd_of_mod_eq_zero (Decidable.not_not.mp h))

/-! ## Blocks -/

/-- Takes one block of a HELLO, and keeps it if its link code means something. -/
def takeBlock (bs : Octets) : Reading (Option (HelloBlock F) × Octets) := do
  if bs.length < 4 then refused (.malformedBody .hello) else
  let (code, bs) ← octet bs
  let bs ← skip 1 bs
  let (size, bs) ← number bs
  if size < 4 ∨ bs.length < size - 4 then refused (.malformedBody .hello) else
  let (front, rest) ← cut (size - 4) bs
  let as ← addresses .hello front
  return ((LinkCode.ofOctet? code).map (⟨·, as⟩), rest)

@[simp] theorem skip_one (b : UInt8) (bs : Octets) : skip 1 (b :: bs) = done bs := rfl

@[simp] theorem skip_two (b c : UInt8) (bs : Octets) : skip 2 (b :: c :: bs) = done bs := rfl

theorem takeBlock_of_lt {bs : Octets} (h : bs.length < 4) :
    takeBlock (F := F) bs = refused (.malformedBody .hello) := by
  rw [takeBlock, if_pos h]

theorem takeBlock_cons (code reserved high low : UInt8) (bs : Octets) :
    takeBlock (F := F) (code :: reserved :: high :: low :: bs) =
      if Octets.toNat [high, low] < 4 then refused (.malformedBody .hello)
      else
        match bs.splitFirst (Octets.toNat [high, low] - 4) with
        | none => refused (.malformedBody .hello)
        | some (front, rest) =>
          addresses .hello front >>= fun as => done ((LinkCode.ofOctet? code).map (⟨·, as⟩), rest) := by
  have hfour : ¬ (code :: reserved :: high :: low :: bs).length < 4 := by simp
  rw [takeBlock, if_neg hfour]
  simp only [octet_cons, done_bind, skip_one, number_cons_cons, pure_eq_done]
  by_cases hsize : Octets.toNat [high, low] < 4
  · rw [if_pos (.inl hsize), if_pos hsize]
  · rw [if_neg hsize]
    cases hcut : bs.splitFirst (Octets.toNat [high, low] - 4) with
    | none => rw [if_pos (.inr (Octets.splitFirst_eq_none_iff.mp hcut))]
    | some parts =>
      obtain ⟨front, rest⟩ := parts
      have hlen := Octets.length_of_splitFirst hcut
      rw [if_neg (by omega), cut_of_splitFirst hcut]
      rfl

/-- Takes the blocks of a HELLO one by one. -/
def block : Reader (Option (HelloBlock F)) where
  read := takeBlock
  shortens {bs rest kept} h := by
    rcases length_lt_four_or bs with hlt | ⟨code, reserved, high, low, body, rfl⟩
    · rw [takeBlock_of_lt hlt] at h
      cases h
    · rw [takeBlock_cons] at h
      split at h
      · cases h
      split at h
      · cases h
      next front rest' hcut =>
        have hlen := Octets.length_of_splitFirst hcut
        obtain ⟨as, -, h⟩ := bind_eq_done h
        cases h
        simp only [List.length_cons]
        omega

/-- Reads blocks that fill the buffer. -/
def blocks (bs : Octets) : Reading (List (HelloBlock F)) := do
  let kept ← block.readAll bs
  return kept.filterMap id

theorem blocks_nil : blocks (F := F) [] = done [] := by
  simp [blocks]

theorem blocks_of_refused {bs : Octets} {e : DecodeError} (hne : bs ≠ [])
    (h : takeBlock (F := F) bs = refused e) : blocks (F := F) bs = refused e := by
  rw [blocks, Reader.readAll_of_refused hne h, refused_bind]

theorem blocks_of_done {bs rest : Octets} {kept : Option (HelloBlock F)}
    (h : takeBlock bs = done (kept, rest)) :
    blocks bs = blocks rest >>= fun bs => done (kept.toList ++ bs) := by
  rw [blocks, blocks, Reader.readAll_of_done h]
  cases block.readAll rest with
  | done bs => cases kept <;> rfl
  | refused | overrun => rfl

/-- What a block comes to whose size field says where it ends. -/
theorem takeBlock_of_splitFirst (code reserved : UInt8) {high low : UInt8} {body front rest : Octets}
    (hsize : ¬ Octets.toNat [high, low] < 4)
    (hcut : body.splitFirst (Octets.toNat [high, low] - 4) = some (front, rest)) :
    takeBlock (F := F) (code :: reserved :: high :: low :: body) =
      ofOption (.malformedBody .hello) ((addressesOfOctets? front).map fun as =>
        ((LinkCode.ofOctet? code).map (⟨·, as⟩), rest)) := by
  rw [takeBlock_cons, if_neg hsize, hcut]
  dsimp only
  rw [addresses_eq]
  cases addressesOfOctets? (F := F) front <;> rfl

theorem blocks_eq (bs : Octets) :
    blocks bs = ofOption (.malformedBody .hello) (blocksOfOctets? (F := F) bs) := by
  fun_induction blocksOfOctets? (F := F) bs with
  | case1 => exact blocks_nil
  | case2 code reserved high low body size hsize =>
    rw [blocks_of_refused (by simp) (by rw [takeBlock_cons, if_pos hsize]), ofOption]
  | case3 code reserved high low body size hsize hcut =>
    rw [blocks_of_refused (by simp) (by rw [takeBlock_cons, if_neg hsize, hcut]), ofOption]
  | case4 code reserved high low body size hsize front rest hcut _ as bs hrest has c hcode ih =>
    have h := takeBlock_of_splitFirst (F := F) code reserved hsize hcut
    rw [has, hcode] at h
    rw [blocks_of_done h, ih, hrest]
    rfl
  | case5 code reserved high low body size hsize front rest hcut _ as bs hrest has hcode ih =>
    have h := takeBlock_of_splitFirst (F := F) code reserved hsize hcut
    rw [has, hcode] at h
    rw [blocks_of_done h, ih, hrest]
    rfl
  | case6 code reserved high low body size hsize front rest hcut _ hnone ih =>
    have h := takeBlock_of_splitFirst (F := F) code reserved hsize hcut
    cases has : addressesOfOctets? (F := F) front with
    | none =>
      rw [has] at h
      exact blocks_of_refused (by simp) h
    | some as =>
      rw [has] at h
      rw [blocks_of_done h, ih]
      cases hrest : blocksOfOctets? (F := F) rest with
      | none => rfl
      | some bs => exact absurd hrest (hnone as bs has)
  | case7 bs hne hshort =>
    rcases length_lt_four_or bs with hlt | ⟨b₀, b₁, b₂, b₃, body, rfl⟩
    · exact blocks_of_refused hne (takeBlock_of_lt hlt)
    · exact absurd rfl (hshort b₀ b₁ b₂ b₃ body)

/-! ## Bodies -/

/-- Reads the body of a HELLO. -/
def hello (bs : Octets) : Reading (Body F) := do
  if bs.length < 4 then refused (.malformedBody .hello) else
  let bs ← skip 2 bs
  let (interval, bs) ← octet bs
  let (willingness, bs) ← octet bs
  let bs ← blocks bs
  return .hello ⟨interval⟩ (Willingness.ofOctet willingness) bs

/-- Reads the body of a TC message. -/
def tc (bs : Octets) : Reading (Body F) := do
  if bs.length < 4 then refused (.malformedBody .tc) else
  let (ansn, bs) ← number bs
  let bs ← skip 2 bs
  let as ← addresses .tc bs
  return .tc (UInt16.ofNat ansn) as

/-- Reads a body of the given message type, which the buffer holds and nothing else. -/
def body (kind : UInt8) (bs : Octets) : Reading (Body F) := do
  if kind = 1 then hello bs
  else if kind = 2 then tc bs
  else if kind = 3 then
    let as ← addresses .mid bs
    return .mid as
  else done (.unknown kind bs)

theorem hello_eq (bs : Octets) : hello bs = ofOption (.malformedBody .hello) (helloOfOctets? (F := F) bs) := by
  rw [hello]
  rcases length_lt_four_or bs with hlt | ⟨b₀, b₁, interval, willingness, rest, rfl⟩
  · have hnone : helloOfOctets? (F := F) bs = none :=
      of_length_lt_four hlt rfl (fun _ => rfl) (fun _ _ => rfl) fun _ _ _ => rfl
    rw [if_pos hlt, hnone, ofOption]
  · have hfour : ¬ (b₀ :: b₁ :: interval :: willingness :: rest).length < 4 := by simp
    rw [if_neg hfour, helloOfOctets?]
    simp only [skip_two, done_bind, octet_cons, blocks_eq]
    cases blocksOfOctets? (F := F) rest <;> rfl

theorem tc_eq (bs : Octets) : tc bs = ofOption (.malformedBody .tc) (tcOfOctets? (F := F) bs) := by
  rw [tc]
  rcases length_lt_four_or bs with hlt | ⟨high, low, b₂, b₃, rest, rfl⟩
  · have hnone : tcOfOctets? (F := F) bs = none :=
      of_length_lt_four hlt rfl (fun _ => rfl) (fun _ _ => rfl) fun _ _ _ => rfl
    rw [if_pos hlt, hnone, ofOption]
  · have hfour : ¬ (high :: low :: b₂ :: b₃ :: rest).length < 4 := by simp
    rw [if_neg hfour, tcOfOctets?]
    simp only [number_cons_cons, done_bind, skip_two, addresses_eq]
    cases addressesOfOctets? (F := F) rest <;> rfl

theorem body_eq (kind : UInt8) (bs : Octets) : body kind bs = ofExcept (Body.decode (F := F) kind bs) := by
  rw [body, Body.decode, hello_eq, tc_eq, addresses_eq]
  split
  · cases helloOfOctets? (F := F) bs <;> rfl
  split
  · cases tcOfOctets? (F := F) bs <;> rfl
  split
  · cases addressesOfOctets? (F := F) bs <;> rfl
  · rfl

/-! ## Messages -/

/-- Reads a message that the buffer holds and nothing else. -/
def message (bs : Octets) : Reading (Message F) := do
  let (kind, bs) ← octet bs
  let (validity, bs) ← octet bs
  let bs ← skip 2 bs
  let (originator, bs) ← cut F.octets bs
  let (ttl, bs) ← octet bs
  let (hops, bs) ← octet bs
  let (seqno, bs) ← number bs
  let body ← body kind bs
  return {
    validity := ⟨validity⟩
    originator := Address.ofOctets originator
    ttl, hops
    seqno := UInt16.ofNat seqno
    body }

/-- Takes one message from the buffer of a packet. -/
def takeMessage (bs : Octets) : Reading (Message F × Octets) := do
  if bs.length < Message.headerSize F then refused (.shortMessage bs.length) else
  let high ← octetAt 2 bs
  let low ← octetAt 3 bs
  let size := Octets.toNat [high, low]
  if size < Message.headerSize F then refused (.shortMessage size) else
  if bs.length < size then refused (.messageOverrun size bs.length) else
  let (front, rest) ← cut size bs
  let m ← message front
  return (m, rest)

/-- Octets that hold a header have the parts of one. -/
theorem exists_header {bs : Octets} (h : Message.headerSize F ≤ bs.length) :
    ∃ kind validity high low originator ttl hops seqnoHigh seqnoLow rest,
      bs = kind :: validity :: high :: low ::
        (originator ++ ttl :: hops :: seqnoHigh :: seqnoLow :: rest) ∧ originator.length = F.octets := by
  rw [Message.headerSize] at h
  rcases length_lt_four_or bs with hlt | ⟨kind, validity, high, low, tail, rfl⟩
  · omega
  simp only [List.length_cons] at h
  cases hcut : Octets.splitFirst F.octets tail with
  | none =>
    rw [Octets.splitFirst_eq_none_iff] at hcut
    omega
  | some parts =>
    obtain ⟨originator, tail'⟩ := parts
    obtain ⟨rfl, horiginator⟩ := Octets.splitFirst_eq_some_iff.mp hcut
    rw [List.length_append] at h
    rcases length_lt_four_or tail' with hlt | ⟨ttl, hops, seqnoHigh, seqnoLow, rest, rfl⟩
    · omega
    · exact ⟨kind, validity, high, low, originator, ttl, hops, seqnoHigh, seqnoLow, rest, rfl, horiginator⟩

theorem message_eq {bs : Octets} (h : Message.headerSize F ≤ bs.length) :
    message bs = ofExcept (Message.decode (F := F) bs) := by
  obtain ⟨kind, validity, high, low, originator, ttl, hops, seqnoHigh, seqnoLow, rest, rfl, hlen⟩ :=
    exists_header h
  have hcut : Octets.splitFirst F.octets (originator ++ ttl :: hops :: seqnoHigh :: seqnoLow :: rest) =
      some (originator, ttl :: hops :: seqnoHigh :: seqnoLow :: rest) :=
    Octets.splitFirst_eq_some_iff.mpr ⟨rfl, hlen⟩
  rw [message, Message.decode, hcut]
  simp only [octet_cons, done_bind, skip_two, cut_of_splitFirst hcut, number_cons_cons, body_eq]
  cases Body.decode (F := F) kind rest <;> rfl

/-- The size field is read at its place in the header. -/
theorem takeMessage_of_le {bs : Octets} (h : Message.headerSize F ≤ bs.length) :
    takeMessage (F := F) bs =
      if messageSizeField bs < Message.headerSize F then refused (.shortMessage (messageSizeField bs))
      else
        match bs.splitFirst (messageSizeField bs) with
        | none => refused (.messageOverrun (messageSizeField bs) bs.length)
        | some (front, rest) => message front >>= fun m => done (m, rest) := by
  rw [takeMessage, if_neg (Nat.not_lt.mpr h)]
  have hhigh : ∃ high low, octetAt 2 bs = done high ∧ octetAt 3 bs = done low ∧
      messageSizeField bs = Octets.toNat [high, low] := by
    obtain ⟨_, _, high, low, _, _, _, _, _, _, rfl, -⟩ := exists_header h
    exact ⟨high, low, rfl, rfl, rfl⟩
  obtain ⟨high, low, hhigh, hlow, hsize⟩ := hhigh
  simp only [hhigh, hlow, done_bind, ← hsize]
  split
  · rfl
  cases hcut : bs.splitFirst (messageSizeField bs) with
  | none => rw [if_pos (Octets.splitFirst_eq_none_iff.mp hcut)]
  | some parts =>
    obtain ⟨front, rest⟩ := parts
    have hlen := Octets.length_of_splitFirst hcut
    rw [if_neg (by omega), cut_of_splitFirst hcut]
    rfl

/-- Takes the messages of a packet one by one. -/
def nextMessage : Reader (Message F) where
  read := takeMessage
  shortens {bs rest m} h := by
    by_cases hheader : bs.length < Message.headerSize F
    · rw [takeMessage, if_pos hheader] at h
      cases h
    rw [takeMessage_of_le (Nat.not_lt.mp hheader)] at h
    split at h
    · cases h
    next hsize =>
      split at h
      · cases h
      next front rest' hcut =>
        obtain ⟨m', -, h⟩ := bind_eq_done h
        cases h
        have hpos := Message.headerSize_pos F
        exact Octets.length_lt_of_splitFirst (by omega) hcut

@[simp] theorem read_nextMessage : (nextMessage : Reader (Message F)).read = takeMessage := rfl

theorem readAll_nextMessage (bs : Octets) :
    nextMessage.readAll bs = ofExcept (messagesOfOctets (F := F) bs) := by
  fun_induction messagesOfOctets (F := F) bs with
  | case1 => simp [ofExcept]
  | case2 bs hne hheader =>
    rw [Octets.splitFirst_eq_none_iff] at hheader
    exact Reader.readAll_of_refused hne (by rw [read_nextMessage, takeMessage, if_pos hheader])
  | case3 bs hne hheader size hsize =>
    rw [Octets.splitFirst_eq_none_iff, Nat.not_lt] at hheader
    refine Reader.readAll_of_refused hne ?_
    rw [read_nextMessage, takeMessage_of_le hheader, if_pos hsize]
  | case4 bs hne hheader size hsize hcut =>
    rw [Octets.splitFirst_eq_none_iff, Nat.not_lt] at hheader
    refine Reader.readAll_of_refused hne ?_
    rw [read_nextMessage, takeMessage_of_le hheader, if_neg hsize, hcut]
  | case5 bs hne hheader size hsize front rest hcut _ ih =>
    rw [Octets.splitFirst_eq_none_iff, Nat.not_lt] at hheader
    obtain ⟨rfl, hlen⟩ := Octets.splitFirst_eq_some_iff.mp hcut
    have hfront : Message.headerSize F ≤ front.length := by omega
    have hread : nextMessage.read (front ++ rest) = message (F := F) front >>= fun m => done (m, rest) := by
      rw [read_nextMessage, takeMessage_of_le hheader, if_neg hsize, hcut]
    rw [message_eq hfront] at hread
    cases hm : Message.decode (F := F) front with
    | error e =>
      rw [hm] at hread
      exact Reader.readAll_of_refused hne hread
    | ok m =>
      rw [hm] at hread
      rw [Reader.readAll_of_done hread, ih]
      cases messagesOfOctets (F := F) rest <;> rfl

/-! ## Packets -/

/-- Reads a datagram. -/
def packet (datagram : Octets) : Reading (Packet F) := do
  if datagram.length < Packet.headerSize then refused (.shortPacket datagram.length) else
  let (declared, bs) ← number datagram
  let (seqno, _) ← number bs
  if declared < Packet.headerSize ∨ datagram.length < declared then
    refused (.lengthMismatch declared datagram.length)
  else
  let bs ← slice Packet.headerSize declared datagram
  let messages ← nextMessage.readAll bs
  if messages = [] then refused .noMessages else
  return { seqno := UInt16.ofNat seqno, messages }

/-- What lies after a header of four, up to where it says. -/
theorem slice_cons (b₀ b₁ b₂ b₃ : UInt8) (front rest : Octets) :
    slice 4 (front.length + 4) (b₀ :: b₁ :: b₂ :: b₃ :: (front ++ rest)) = done front := by
  have hbounds : 4 ≤ front.length + 4 ∧ front.length + 4 ≤ (b₀ :: b₁ :: b₂ :: b₃ :: (front ++ rest)).length := by
    simp only [List.length_cons, List.length_append]
    omega
  rw [slice, if_pos hbounds]
  simp

theorem ne_nil_of_messagesOfOctets {bs : Octets} {ms : List (Message F)} (hne : bs ≠ [])
    (h : messagesOfOctets bs = .ok ms) : ms ≠ [] := by
  obtain ⟨ws, rfl, rfl, -⟩ := exists_of_messagesOfOctets h
  rintro hnil
  rw [List.map_eq_nil_iff] at hnil
  exact hne (by rw [hnil, List.flatMap_nil])

/-- Nothing is read past the end of a buffer. -/
theorem packet_eq (datagram : Octets) :
    packet datagram = ofExcept (Packet.decode (F := F) datagram) := by
  rw [packet, Packet.headerSize]
  rcases length_lt_four_or datagram with hlt | ⟨lengthHigh, lengthLow, seqnoHigh, seqnoLow, rest, rfl⟩
  · have hshort : Packet.decode (F := F) datagram = .error (.shortPacket datagram.length) :=
      of_length_lt_four hlt rfl (fun _ => rfl) (fun _ _ => rfl) fun _ _ _ => rfl
    rw [if_pos hlt, hshort, ofExcept]
  have hfour : ¬ (lengthHigh :: lengthLow :: seqnoHigh :: seqnoLow :: rest).length < 4 := by simp
  rw [if_neg hfour, Packet.decode, Packet.headerSize]
  simp only [number_cons_cons, done_bind]
  generalize Octets.toNat [lengthHigh, lengthLow] = declared
  by_cases hheader : declared < 4
  · rw [if_pos (.inl hheader), if_pos hheader, ofExcept]
  rw [if_neg hheader]
  cases hcut : Octets.splitFirst (declared - 4) rest with
  | none =>
    rw [Octets.splitFirst_eq_none_iff] at hcut
    rw [if_pos, ofExcept]
    simp only [List.length_cons]
    omega
  | some parts =>
    obtain ⟨front, tail⟩ := parts
    obtain ⟨rfl, hlen⟩ := Octets.splitFirst_eq_some_iff.mp hcut
    obtain rfl : declared = front.length + 4 := by omega
    have hle : ¬ (front.length + 4 < 4 ∨
        (lengthHigh :: lengthLow :: seqnoHigh :: seqnoLow :: (front ++ tail)).length < front.length + 4) := by
      simp only [List.length_cons, List.length_append]
      omega
    rw [if_neg hle, slice_cons, done_bind, readAll_nextMessage]
    cases front with
    | nil => simp [ofExcept, messagesOfOctets]
    | cons b bs =>
      dsimp only
      cases hread : messagesOfOctets (F := F) (b :: bs) with
      | error e => rfl
      | ok messages =>
        have hne := ne_nil_of_messagesOfOctets (List.cons_ne_nil b bs) hread
        rw [ofExcept, done_bind, if_neg hne]
        rfl

end Reading

end Manet
