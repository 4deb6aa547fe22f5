import ContainerUsage.Net.Ipv4
/-!
# IPv6 addresses

An IPv6 address is eight groups of sixteen bits.  It is written with the groups in hexadecimal and
colons between them.  One run of zero groups may be left out, which two colons show, and the last
two groups may be written as an IPv4 address.

Many texts stand for one address.  `print` writes the one that leaves out the first longest run of
at least two zero groups, and dots the last two groups of an address that stands for an IPv4
address.
-/

namespace ContainerUsage

/-- An IPv6 address. -/
structure Ipv6 where
  groups : List UInt16
  length_groups : groups.length = 8
  deriving DecidableEq

namespace Ipv6

open Text (Reader)

/-- The address with given groups, if there are eight. -/
def ofGroups (groups : List UInt16) : Option Ipv6 :=
  if h : groups.length = 8 then some ⟨groups, h⟩ else none

/-- An address is put together from its groups. -/
theorem ofGroups_groups (ip : Ipv6) : ofGroups ip.groups = some ip := by
  simp [ofGroups, ip.length_groups]

/-! ## Reading -/

/-- Reads one of the groups. -/
def readGroup : Reader UInt16 := fun s =>
  (Reader.number ⟨16, some 4, true, UInt16.size⟩ s).map fun r => (r.1.toUInt16, r.2)

/-- Groups that were read, whether the last two were dotted, and what follows. -/
structure Run where
  groups : List UInt16
  dotted : Bool
  rest : List Char

/-- Reads at most `room` groups with colons between them.  The last two may be dotted.  Only what
belongs to a group is read, so a colon without one is left. -/
def readRun : (room : Nat) → (first : Bool) → List Char → Run
  | 0, _, s => ⟨[], false, s⟩
  | room + 1, first, s =>
    let item := if first then some s else (Reader.char ':' s).map Prod.snd
    match if room = 0 then none else item.bind Ipv4.read with
    | some (ip, rest) => ⟨ip.groups, true, rest⟩
    | none =>
      match item.bind readGroup with
      | none => ⟨[], false, s⟩
      | some (group, rest) =>
        let more := readRun room false rest
        ⟨group :: more.groups, more.dotted, more.rest⟩

/-- Reads an address.  Two colons stand for at least one zero group, and nothing dotted comes before
them. -/
def read : Reader Ipv6 := fun s =>
  let head := readRun 8 true s
  if head.groups.length = 8 then (ofGroups head.groups).map (·, head.rest)
  else if head.dotted then none
  else
    match head.rest with
    | ':' :: ':' :: rest =>
      let tail := readRun (8 - (head.groups.length + 1)) true rest
      let zeros := List.replicate (8 - head.groups.length - tail.groups.length) 0
      (ofGroups (head.groups ++ zeros ++ tail.groups)).map (·, tail.rest)
    | _ => none

/-! ## Writing -/

/-- The IPv4 address for which an address stands. -/
def ipv4? (ip : Ipv6) : Option Ipv4 :=
  match ip.groups with
  | [0, 0, 0, 0, 0, 0xFFFF, high, low] => some (Ipv4.ofGroups high low)
  | _ => none

/-- Groups with colons between them. -/
def printGroups (groups : List UInt16) : String :=
  ":".intercalate (groups.map fun g => String.ofList (Nat.toDigits 16 g.toNat))

/-- The number of zero groups from an index on. -/
def zerosFrom (groups : List UInt16) (index : Nat) : Nat :=
  ((groups.drop index).takeWhile (· = 0)).length

/-- Where the first longest run of zero groups starts, and its length. -/
def longestZeros (groups : List UInt16) : Nat × Nat :=
  (List.range groups.length).foldl
    (fun best index =>
      if best.2 < zerosFrom groups index then (index, zerosFrom groups index) else best)
    (0, 0)

/-- The text of an address. -/
def print (ip : Ipv6) : String :=
  match ip.ipv4? with
  | some inner => "::ffff:" ++ inner.print
  | none =>
    let zeros := longestZeros ip.groups
    if 1 < zeros.2 then
      printGroups (ip.groups.take zeros.1) ++ "::" ++
        printGroups (ip.groups.drop (zeros.1 + zeros.2))
    else printGroups ip.groups

end Ipv6

end ContainerUsage
