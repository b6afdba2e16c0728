import Manet.Router.Outbound

/-!
# MID messages

A MID message declares the further interfaces of its originator (RFC 3626, section 5). The
interfaces of this node are associated with its main address for good.
-/

namespace Manet.Router

variable {F : Family}

/-- Records one interface of the originator. -/
def recordInterface (originator : Address F) (validUntil now : Time) (r : Router F)
    (iface : Address F) : Router F :=
  if r.isLocal iface then r
  else
    match (r.tables.associations.get? iface).filter fun t => t.main = originator with
    | some t => r.onStore (·.overwrite (.association { t with time := some validUntil }))
    | none =>
      (r.note (.interfaceLearned iface originator)).onStore
        (·.insert (.association { iface, main := originator, time := some validUntil }) now)

/-- Takes in a MID message that came over a symmetric link. -/
def processMid (r : Router F) (originator : Address F) (validity : Time)
    (interfaces : List (Address F)) (sender : Address F) (now : Time) : Router F :=
  if r.hears sender now then interfaces.foldl (recordInterface originator (now + validity) now) r
  else r

/-- The interface addresses that a MID message declares. -/
def declaredInterfaces (r : Router F) : List (Address F) :=
  if r.params.optimizedMid ∧ r.interfaces.length ≤ 1 then []
  else (r.interfaces.map (·.address)).filter (· ≠ r.address)

/-- Lets a MID message wait if there is anything to declare. -/
def sendMid (r : Router F) : Router F :=
  if r.declaredInterfaces = [] then r
  else (r.note .midSent).originate r.params.midHoldTime floodTtl (.mid r.declaredInterfaces)

/-- Takes the interfaces that the host provides now. -/
def refreshInterfaces (r : Router F) (provided : List (Interface F)) (now : Time) : Router F :=
  let gone := (r.interfaces.map (·.address)).filter fun a => a ∉ provided.map (·.address)
  let r := r.onStore (·.eraseAll (gone.map .association))
  let r := provided.foldl
    (fun r i => r.onStore
      (·.insert (.association { iface := i.address, main := r.address, time := none }) now))
    r
  { r with interfaces := provided }

end Manet.Router
