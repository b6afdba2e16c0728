import Manet.Router.Outbound

/-!
# TC messages

A TC message advertises the neighbours that selected its originator as relay, under the number of
that set (RFC 3626, section 9). A newer set replaces an older one; a message with the number that
is stored adds to the set, and one with an older number is ignored.
-/

namespace Manet.Router

variable {F : Family}

/-- The keys of the originator's topology tuples that satisfy `p`. -/
def advertisedKeys (T : Tables F) (originator : Address F) (p : TopologyTuple F → Bool) :
    List (TupleKey F) :=
  (T.topology.toList.filter fun t => t.last = originator ∧ p t).map fun t => .topology t.dest t.last

/-- Records one advertised neighbour. -/
def recordAdvertised (originator : Address F) (ansn : SeqNum) (validUntil now : Time) (r : Router F)
    (dest : Address F) : Router F :=
  r.onStore <|
    match r.tables.topology.get? (dest, originator) with
    | some t => (·.overwrite (.topology { t with time := validUntil }))
    | none => (·.insert (.topology { dest, last := originator, seqno := ansn, time := validUntil }) now)

/-- Takes in a TC message that came over a symmetric link. -/
def processTc (r : Router F) (originator : Address F) (validity : Time) (ansn : SeqNum)
    (neighbours : List (Address F)) (sender : Address F) (now : Time) : Router F :=
  if r.hears sender now then
    if r.tables.topology.toList.any fun t => t.last = originator ∧ SeqNum.newer t.seqno ansn then
      r.note (.tcOutdated ansn originator)
    else
      let r := r.onStore fun s =>
        s.eraseAll (advertisedKeys s.tables originator fun t => SeqNum.newer ansn t.seqno)
      neighbours.foldl (recordAdvertised originator ansn (now + validity) now) r
  else r

/-- Lets a TC message wait. -/
def sendTc (r : Router F) : Router F :=
  (r.note (.tcSent r.tables.ansn)).originate r.params.topologyHoldTime floodTtl
    (.tc r.tables.ansn (r.tables.selectors.toList.map (·.main)))

end Manet.Router
