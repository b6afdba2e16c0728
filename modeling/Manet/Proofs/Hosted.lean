import Manet.Proofs.Step

/-!
# Routers on a host

A `Hosted` router stands on a host with a clock and a set of pending timers. The host carries out
what the router asks of it after every operation, and delivers a pending timer at any time, in any
order: the timer is no longer pending by then, and a timer that was cancelled never comes.
`Hosted.Reaches Next` holds of everything that such a host can lead to.
-/

namespace Manet

variable {F : Family}

/-! ## Pending timers -/

/-- A pending timer. -/
structure Alarm (F : Family) where
  handle : Handle
  due : Time
  timer : Timer F
deriving DecidableEq

instance : Keyed (Alarm F) Handle := ⟨Alarm.handle⟩

/-- The pending timers of a host. -/
abbrev Alarms (F : Family) := Table (Alarm F)

/-- The pending timers after a call that is made at `now`. -/
def Alarms.carryOut (now : Time) (A : Alarms F) : Call F → Alarms F
  | .schedule handle delay timer => A.insert { handle, due := now + delay, timer }
  | .cancel handle => A.erase handle
  | _ => A

/-- The pending timers after the calls of a journal. -/
def Journal.pending (j : Journal F) (now : Time) (A : Alarms F) : Alarms F :=
  j.calls.toList.foldl (Alarms.carryOut now) A

namespace Journal

variable (j : Journal F) (now : Time) (A : Alarms F)

theorem pending_of_empty {j : Journal F} (h : j.calls = #[]) : j.pending now A = A := by
  rw [pending, h]
  rfl

theorem pending_call (c : Call F) :
    (j.call c).pending now A = Alarms.carryOut now (j.pending now A) c := by
  rw [pending, call, Array.toList_push, List.foldl_append]
  rfl

theorem pending_schedule (delay : Time) (timer : Timer F) :
    (j.schedule delay timer).pending now A =
      (j.pending now A).insert { handle := j.nextHandle, due := now + delay, timer } :=
  pending_call { j with issued := j.nextHandle } now A _

theorem pending_cancelAll (hs : List Handle) (h : Handle) :
    ((j.cancelAll hs).pending now A).get? h = if h ∈ hs then none else (j.pending now A).get? h := by
  induction hs generalizing j with
  | nil => rfl
  | cons h' hs ih =>
    rw [show j.cancelAll (h' :: hs) = (j.call (.cancel h')).cancelAll hs from rfl, ih, pending_call,
      Alarms.carryOut, Table.get?_erase]
    by_cases hh : h = h' <;> by_cases hm : h ∈ hs <;> simp [hh, hm]

theorem pending_withdrawAll (routes : List (Route F)) :
    (j.withdrawAll routes).pending now A = j.pending now A := by
  induction routes generalizing j with
  | nil => rfl
  | cons route routes ih =>
    rw [show j.withdrawAll (route :: routes) = (j.call (.routeRemoved route)).withdrawAll routes
      from rfl, ih, pending_call]
    rfl

/-- Reports leave the timers alone. -/
theorem Reports.pending_eq {j j' : Journal F} (h : Reports j j') (now : Time) (A : Alarms F) :
    j'.pending now A = j.pending now A ∧ j'.issued = j.issued := by
  induction h with
  | nothing => exact ⟨rfl, rfl⟩
  | note n _ ih => exact ih
  | call c hc _ ih =>
    refine ⟨?_, ih.2⟩
    rw [pending_call, ih.1]
    cases c <;> first | rfl | cases hc

end Journal

/-! ## Runs -/

/-- Whether an operation is the delivery of a timer, which is up to the host. -/
def Operation.isDelivery : Operation F → Bool
  | timer _ => true
  | start _ | stop | packet .. | linkFailed _ | refresh _ => false

/-- Whether an operation is the reception of a datagram. -/
def Operation.isReception : Operation F → Bool
  | packet .. => true
  | start _ | stop | timer _ | linkFailed _ | refresh _ => false

/-- A router on its host. -/
structure Hosted (F : Family) where
  router : Router F
  alarms : Alarms F
  now : Time

namespace Hosted

/-- A new router on a host without pending timers. -/
def create (address : Address F) (params : Params) (entropy : Entropy) : Hosted F :=
  ⟨.create address params entropy, ∅, 0⟩

/-- Carries out an operation, and then what it asks of the host. -/
def operate (H : Hosted F) (now : Time) (op : Operation F) : Hosted F :=
  let r := H.router.apply now op
  { router := { r with journal := .blank r.journal.issued }
    alarms := r.journal.pending now H.alarms
    now }

/-- Takes a pending timer out and delivers it. -/
def deliver (H : Hosted F) (now : Time) (a : Alarm F) : Hosted F :=
  { H with alarms := H.alarms.erase a.handle }.operate now (.timer a.timer)

/-- What may happen next. -/
inductive Next (H : Hosted F) : Hosted F → Prop where
  | operation {now : Time} (op : Operation F) : H.now ≤ now → op.isDelivery = false →
      Next H (H.operate now op)
  | delivery {now : Time} (a : Alarm F) : H.now ≤ now → a ∈ H.alarms → Next H (H.deliver now a)

/-- What a run from creation leads to, when each of its steps satisfies `R`. -/
inductive Reaches (R : Hosted F → Hosted F → Prop) : Hosted F → Prop where
  | create (address : Address F) (params : Params) (entropy : Entropy) :
      Reaches R (create address params entropy)
  | next {H H' : Hosted F} : Reaches R H → R H H' → Reaches R H'

/-! ## A small run -/

/-- A router on its host that took a HELLO in. -/
def sample : Hosted .ipv4 :=
  ((create Router.sampleAddress {} (.cycle #[])).operate 0 Router.sampleStart).operate 0
    Router.sampleReception

theorem sample_reaches : Reaches Next sample :=
  .next (.next (.create _ _ _) (.operation _ (Nat.le_refl 0) rfl)) (.operation _ (Nat.le_refl 0) rfl)

end Hosted

end Manet
