import Manet.Address
import Manet.Text.Hex

/-!
# Addresses as text

An IPv4 address is written as four decimal octets joined by dots, an IPv6 address as eight
hexadecimal groups joined by colons, the first longest run of at least two zero groups shortened
to two colons. An IPv6 address whose upper 96 bits are `::ffff` is written with a dotted quad at
its end, and one may be read at the end of any IPv6 address. `Address.toChars` writes,
`Address.ofChars?` reads; the reader also takes upper case digits, leading zeros in a group and
groups that are not shortened.
-/

namespace Manet

namespace Address

/-! ## Dotted quads -/

/-- Reads one to three decimal digits without a leading zero, up to 255. -/
def decimalOctet? (cs : List Char) : Option Nat :=
  let n := Nat.ofDigitChars 10 cs 0
  if cs ≠ [] ∧ cs.length ≤ 3 ∧ cs.all Char.isDigit ∧ (cs.head? = some '0' → cs.length = 1) ∧ n ≤ 255
  then some n
  else none

/-- Reads a 32 bit number written as a dotted quad. -/
def dottedQuad? (cs : List Char) : Option Nat :=
  match (cs.splitOn '.').mapM decimalOctet? with
  | some [a, b, c, d] => some (((a * 256 + b) * 256 + c) * 256 + d)
  | _ => none

/-- Writes a 32 bit number as a dotted quad. -/
def dottedQuad (n : Nat) : List Char :=
  ['.'].intercalate ((Octets.ofNat 4 n).map fun b => Nat.toDigits 10 b.toNat)

/-! ## Groups of sixteen bits -/

/-- Reads one to four hexadecimal digits. -/
def hexGroup? (cs : List Char) : Option Nat :=
  if cs ≠ [] ∧ cs.length ≤ 4 then Text.hexNumber? cs else none

/-- Reads groups that were cut at the colons; with `quad` set, the last may be a dotted quad, which
counts as two. -/
def groups? (quad : Bool) : List (List Char) → Option (List Nat)
  | [] => some []
  | [cs] =>
    match quad, dottedQuad? cs with
    | true, some n => some [n / 65536, n % 65536]
    | _, _ => (hexGroup? cs).map ([·])
  | cs :: rest => do
    let n ← hexGroup? cs
    let ns ← groups? quad rest
    some (n :: ns)

/-- Reads groups joined by colons, none of them from the empty text. -/
def colonGroups? (quad : Bool) (cs : List Char) : Option (List Nat) :=
  if cs = [] then some [] else groups? quad (cs.splitOn ':')

/-- Cuts at the first two colons in a row. -/
def splitGap : List Char → Option (List Char × List Char)
  | ':' :: ':' :: cs => some ([], cs)
  | c :: cs => (splitGap cs).map fun (front, back) => (c :: front, back)
  | [] => none

/-- Reads the eight groups of an IPv6 address. A gap stands for one zero group or more. -/
def eightGroups? (cs : List Char) : Option (List Nat) :=
  match splitGap cs with
  | some (front, back) => do
    let head ← colonGroups? false front
    let tail ← colonGroups? true back
    if head.length + tail.length ≤ 7 then
      some (head ++ List.replicate (8 - head.length - tail.length) 0 ++ tail)
    else none
  | none => do
    let groups ← colonGroups? true cs
    if groups.length = 8 then some groups else none

/-- The eight groups of a 128 bit number, most significant first. -/
def groupsOf (n : Nat) : List Nat := (List.range 8).map fun i => n >>> (16 * (7 - i)) % 65536

/-- How many zero groups the list starts with. -/
def zeroRun (groups : List Nat) : Nat := (groups.takeWhile (· = 0)).length

/-- Start and length of the first longest run of zero groups. -/
def longestZeroRun (groups : List Nat) : Nat × Nat :=
  (List.range groups.length).foldl
    (fun best i =>
      let run := zeroRun (groups.drop i)
      if best.2 < run then (i, run) else best)
    (0, 0)

/-- Writes groups in lower case hexadecimal without leading zeros, joined by colons. -/
def joinGroups (groups : List Nat) : List Char := [':'].intercalate (groups.map (Nat.toDigits 16))

/-- Writes a 128 bit number as an IPv6 address. -/
def sixteenOctets (n : Nat) : List Char :=
  if n >>> 32 = 0xffff then "::ffff:".toList ++ dottedQuad n
  else
    let groups := groupsOf n
    let (start, run) := longestZeroRun groups
    if 2 ≤ run then joinGroups (groups.take start) ++ "::".toList ++ joinGroups (groups.drop (start + run))
    else joinGroups groups

/-! ## Addresses -/

/-- The text of an address. -/
def toChars : {F : Family} → Address F → List Char
  | .ipv4, a => dottedQuad a.toNat
  | .ipv6, a => sixteenOctets a.toNat

/-- Reads an address of the given family. -/
def ofChars? : {F : Family} → List Char → Option (Address F)
  | .ipv4, cs => (dottedQuad? cs).map .ofNat
  | .ipv6, cs => (eightGroups? cs).map fun groups => .ofNat (groups.foldl (fun n g => 65536 * n + g) 0)

/-- The text of an address, as a string. -/
protected def toString {F : Family} (a : Address F) : String := String.ofList a.toChars

instance {F : Family} : ToString (Address F) := ⟨Address.toString⟩

/-- Reads an address from a string. -/
def ofString? {F : Family} (s : String) : Option (Address F) := ofChars? s.toList

end Address

end Manet
