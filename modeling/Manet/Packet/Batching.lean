import Manet.Packet

/-!
# Batches of messages

Messages that wait are cut into packets from the front. A packet takes messages as long as they fit
its length field and a limit on their number; its first message it always takes. `batches` is all
packets of a queue (`flatten_batches`: in order, nothing lost, nothing repeated).
-/

namespace Manet.Packet

variable {F : Family}

/-- Cuts after the messages that still fit a packet with room for `limit` more messages, of which
`used` octets are filled. -/
def takeFitting : (limit used : Nat) → List (Message F) → List (Message F) × List (Message F)
  | 0, _, ms => ([], ms)
  | _ + 1, _, [] => ([], [])
  | limit + 1, used, m :: ms =>
    if used + m.size ≤ maxSize then
      let (front, rest) := takeFitting limit (used + m.size) ms
      (m :: front, rest)
    else ([], m :: ms)

theorem takeFitting_append (limit used : Nat) (ms : List (Message F)) :
    (takeFitting limit used ms).1 ++ (takeFitting limit used ms).2 = ms := by
  fun_induction takeFitting limit used ms with
  | case1 => rfl
  | case2 => rfl
  | case3 _ _ _ _ _ _ _ h ih => simpa [h] using ih
  | case4 => rfl

theorem length_takeFitting_le (limit used : Nat) (ms : List (Message F)) :
    (takeFitting limit used ms).2.length ≤ ms.length := by
  have h := congrArg List.length (takeFitting_append limit used ms)
  rw [List.length_append] at h
  omega

/-- The messages of each packet, with at most `limit` messages or one. -/
def batches (limit : Nat) : List (Message F) → List (List (Message F))
  | [] => []
  | m :: ms =>
    let cut := takeFitting (limit - 1) (headerSize + m.size) ms
    (m :: cut.1) :: batches limit cut.2
termination_by ms => ms.length
decreasing_by exact Nat.lt_succ_of_le (length_takeFitting_le ..)

theorem flatten_batches (limit : Nat) (ms : List (Message F)) : (batches limit ms).flatten = ms := by
  fun_induction batches limit ms with
  | case1 => rfl
  | case2 m ms cut ih => rw [List.flatten_cons, ih, List.cons_append, takeFitting_append]

end Manet.Packet
