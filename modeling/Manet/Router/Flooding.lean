import Manet.Router.Hello
import Manet.Router.Mid
import Manet.Router.Tc

/-!
# Flooding

Every message but a HELLO is relayed through the network (RFC 3626, section 3.4). A message is
taken in once, however often it comes, and relayed at most once, and only for senders that selected
this node as relay. The tuples of seen messages remember what was done.
-/

namespace Manet.Router

variable {F : Family}

/-- Takes in a message. -/
def process (r : Router F) (m : Message F) (receiver sender : Address F) (now : Time) : Router F :=
  match m.body with
  | .hello _ willingness blocks =>
    r.processHello m.originator m.validity.duration willingness blocks receiver sender now
  | .tc ansn neighbours => r.processTc m.originator m.validity.duration ansn neighbours sender now
  | .mid interfaces => r.processMid m.originator m.validity.duration interfaces sender now
  | .unknown kind _ => r.note (.unknownMessage kind m.originator)

/-- The copy of a message that is relayed: one hop less to go, one more behind it. -/
def relayedCopy (m : Message F) : Message F :=
  { m with ttl := m.ttl - 1, hops := if m.hops = 255 then 255 else m.hops + 1 }

/-- Records that a message was received on an interface. -/
def recordSeen (r : Router F) (m : Message F) (receiver : Address F) (retransmitted : Bool)
    (now : Time) : Router F :=
  let time := now + r.params.dupHoldTime
  r.onStore <|
    match r.tables.duplicates.get? (m.originator, m.seqno) with
    | some t =>
      (·.overwrite (.duplicate
        { t with retransmitted, interfaces := t.interfaces ++ [receiver], time }))
    | none =>
      (·.insert (.duplicate
        { originator := m.originator, seqno := m.seqno, retransmitted, interfaces := [receiver],
          time }) now)

/-- Relays a message that came over a symmetric link and was not relayed before, if the sender
selected this node and hops are left. -/
def forward (r : Router F) (m : Message F) (receiver sender : Address F) (now : Time) : Router F :=
  if r.hears sender now ∧
      !(r.tables.duplicates.get? (m.originator, m.seqno)).any (·.retransmitted) then
    if 1 < m.ttl ∧ r.relaysFor sender now then
      ((r.note (.forwarded m.seqno m.originator)).enqueue (relayedCopy m)).recordSeen m receiver
        true now
    else r.recordSeen m receiver false now
  else r

/-- Takes in and relays a message, as far as it was not done before. -/
def handleMessage (receiver sender : Address F) (now : Time) (r : Router F) (m : Message F) :
    Router F :=
  if m.ttl = 0 ∨ r.isLocal m.originator then r
  else
    match r.tables.duplicates.get? (m.originator, m.seqno) with
    | some t =>
      if receiver ∈ t.interfaces ∨ m.body.isHello then r else r.forward m receiver sender now
    | none =>
      let r := r.process m receiver sender now
      if m.body.isHello then r else r.forward m receiver sender now

end Manet.Router
