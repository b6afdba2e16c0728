import Manet.Proofs.Footprint

/-!
# The steps of a run

`Router.Step` says once what an operation can do: it does nothing, or it is a sequence of deeds with
at most one thing that is no deed, such as a periodic timer that asks for itself. `apply_step` shows
that there is nothing else, so that an invariant of runs needs to be looked at along deeds and once
for each constructor.
-/

namespace Manet

variable {F : Family}

/-- Whether a running router may ignore an operation: a second start, and datagrams that are not
taken in. -/
def Operation.isIgnorable : Operation F → Bool
  | start _ | packet .. => true
  | stop | timer _ | linkFailed _ | refresh _ => false

namespace Router

/-- An operation on `r` may end in the given router. -/
inductive Step (now : Time) (r : Router F) : Operation F → Router F → Prop where
  | idle {op : Operation F} : (r.running = true → op.isIgnorable = true) → Step now r op r
  | start {r' : Router F} (provided : List (Interface F)) (delay : Time) : r.running = false →
      Does [.lasting, .dropped .association] now { r with running := true } r' →
      Step now r (.start provided)
        { r' with
          interfaces := provided
          journal := (((r'.journal.schedule delay .hello).schedule delay .tc).schedule delay
            .mid).note (.started provided.length)
          helloTimer := some (r'.journal.issued + 1)
          tcTimer := some (r'.journal.issued + 2)
          midTimer := some (r'.journal.issued + 3) }
  | stop : r.running = true →
      Step now r .stop
        { r with
          tables := .withAnsn r.tables.ansn
          book := ∅
          journal := (((r.journal.cancelAll r.ownTimers).cancelAll
            (r.book.armed.toList.map (·.handle))).withdrawAll r.routes.toList).note .stopped
          running := false
          helloTimer := none
          tcTimer := none
          midTimer := none
          flushTimer := none
          outbound := []
          routes := ∅ }
  | packet {r' : Router F} (id : InterfaceId) (sender : Address F) (datagram : Octets) :
      r.running = true → Does reception now r r' → Step now r (.packet id sender datagram) r'
  | linkFailed {r' : Router F} (destination : Address F) : r.running = true →
      Does (.stored .link :: upkeep) now r r' → Step now r (.linkFailed destination) r'
  | refresh {r' : Router F} (provided : List (Interface F)) :
      Does [.lasting, .dropped .association] now r r' →
      Step now r (.refresh provided) { r' with interfaces := provided }
  | hello {r' : Router F} (delay : Time) (entropy : Entropy) : r.running = true →
      Does [.journal, .queue] now { r with helloTimer := none } r' →
      Step now r (.timer .hello)
        { r' with
          journal := r'.journal.schedule delay .hello
          helloTimer := some r'.journal.nextHandle
          entropy }
  | tc {r' : Router F} (delay : Time) (entropy : Entropy) : r.running = true →
      Does [.journal, .queue] now { r with tcTimer := none } r' →
      Step now r (.timer .tc)
        { r' with
          journal := r'.journal.schedule delay .tc
          tcTimer := some r'.journal.nextHandle
          entropy }
  | mid {r' : Router F} (delay : Time) (entropy : Entropy) : r.running = true →
      Does [.journal, .queue] now { r with midTimer := none } r' →
      Step now r (.timer .mid)
        { r' with
          journal := r'.journal.schedule delay .mid
          midTimer := some r'.journal.nextHandle
          entropy }
  | flush {r' : Router F} : r.running = true →
      Does [.journal, .sending, .queue] now { r with flushTimer := none, outbound := [] } r' →
      Step now r (.timer .flush) r'
  | expiry {r' : Router F} (key : TupleKey F) (generation : Nat) : r.running = true →
      Does upkeep now { r with toStore := (r.toStore.expire key generation now).2 } r' →
      Step now r (.timer (.expiry key generation)) r'

theorem apply_step_of_running {r : Router F} (hr : r.running = true) (now : Time)
    (op : Operation F) : Step now r op (r.apply now op) := by
  cases op with
  | start provided =>
    rw [apply, start_of_running hr]
    exact .idle fun _ => rfl
  | stop =>
    rw [apply, stop_eq hr]
    exact .stop hr
  | packet id sender datagram =>
    unfold apply
    dsimp only
    split
    · rename_i r' h
      exact .packet _ _ _ hr (handlePacket_does h)
    · exact .idle fun _ => rfl
  | timer timer =>
    rw [apply]
    cases timer with
    | hello =>
      obtain ⟨r', delay, entropy, hd, he⟩ := handleTimer_hello_does hr now
      rw [he]
      exact .hello delay entropy hr hd
    | tc =>
      obtain ⟨r', delay, entropy, hd, he⟩ := handleTimer_tc_does hr now
      rw [he]
      exact .tc delay entropy hr hd
    | mid =>
      obtain ⟨r', delay, entropy, hd, he⟩ := handleTimer_mid_does hr now
      rw [he]
      exact .mid delay entropy hr hd
    | flush =>
      rw [handleTimer, if_pos hr]
      exact .flush hr (flush_does { r with flushTimer := none })
    | expiry key generation =>
      rw [handleTimer, if_pos hr]
      exact .expiry key generation hr (expire_does r key generation)
  | linkFailed destination => exact .linkFailed destination hr (linkFailed_does r destination)
  | refresh provided =>
    obtain ⟨r', hd, he⟩ := r.refreshInterfaces_does provided now
    rw [apply, he]
    exact .refresh provided hd

theorem apply_step_of_not_running {r : Router F} (hr : r.running = false) (now : Time)
    (op : Operation F) : Step now r op (r.apply now op) := by
  have idle {op : Operation F} : Step now r op r :=
    .idle fun h => absurd (hr.symm.trans h) Bool.false_ne_true
  cases op with
  | start provided =>
    obtain ⟨r', delay, hd, he⟩ := start_does hr provided now
    rw [apply, he]
    exact .start provided delay hr hd
  | stop =>
    rw [apply, stop_of_not_running hr]
    exact idle
  | packet id sender datagram =>
    rw [apply, handlePacket_of_not_running hr]
    exact idle
  | timer timer =>
    rw [apply, handleTimer_of_not_running hr]
    exact idle
  | linkFailed destination =>
    rw [apply, linkFailed_of_not_running hr]
    exact idle
  | refresh provided =>
    obtain ⟨r', hd, he⟩ := r.refreshInterfaces_does provided now
    rw [apply, he]
    exact .refresh provided hd

/-- Every operation is a step. -/
theorem apply_step (r : Router F) (now : Time) (op : Operation F) :
    Step now r op (r.apply now op) := by
  cases hr : r.running with
  | true => exact apply_step_of_running hr now op
  | false => exact apply_step_of_not_running hr now op

/-- Nothing changes the parameters. -/
theorem apply_params (r : Router F) (now : Time) (op : Operation F) :
    (r.apply now op).params = r.params := by
  have hs := r.apply_step now op
  generalize r.apply now op = r' at hs
  cases hs with
  | idle | stop => rfl
  | start _ _ _ hd | refresh _ hd | packet _ _ _ _ hd | linkFailed _ _ hd | hello _ _ _ hd
  | tc _ _ _ hd | mid _ _ _ hd | flush _ hd | expiry _ _ _ hd => exact hd.sameNode.params

end Router

end Manet
