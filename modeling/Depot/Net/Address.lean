import Depot.Text.Numerals

/-!
# Network addresses in text

IPv4 and IPv6 addresses, with and without a port, in their usual notation.

Reading is strict. The four numbers of an IPv4 address have no leading zeros. An IPv6 address has
eight groups of at most four hexadecimal digits; one `::` stands for a run of zero groups that is not
empty, and the last two groups may be written as an IPv4 address. With a port, an IPv6 address stands
in brackets and may name a scope.

Writing shortens the first longest run of at least two zero groups, and shows the IPv4 address inside
an IPv4-mapped one.
-/

namespace Depot.Net

/-- An address of a host. -/
inductive Ip
  | v4 (a b c d : UInt8)
  /-- Eight groups, most significant first. -/
  | v6 (groups : List UInt16)
  deriving DecidableEq, Repr

/-- An address of a host with a port. -/
structure Endpoint where
  ip : Ip
  port : UInt16
  /-- The scope of an IPv6 address; 0 when none is named. -/
  scope : UInt32 := 0
  deriving DecidableEq, Repr

/-! ## Reading

A reader takes a value from the front of some characters and gives back the rest. -/

/-- The value of a digit in a base up to sixteen. -/
def digit? (base : Nat) (c : Char) : Option Nat :=
  let n := c.toNat
  let value :=
    if 48 ≤ n ∧ n ≤ 57 then some (n - 48)
    else if 97 ≤ n ∧ n ≤ 102 then some (n - 87)
    else if 65 ≤ n ∧ n ≤ 70 then some (n - 55)
    else none
  value.filter (· < base)

/-- The longest run of digits at the front. -/
def readDigits (base : Nat) : List Char → List Nat × List Char
  | [] => ([], [])
  | c :: rest =>
      match digit? base c with
      | none => ([], c :: rest)
      | some d =>
          let (ds, rest) := readDigits base rest
          (d :: ds, rest)

/-- The form that a number in an address may have. -/
structure NumberForm where
  base : Nat
  /-- The largest value. -/
  limit : Nat
  /-- The most digits. -/
  width : Option Nat := none
  /-- Whether a longer number may start with a zero. -/
  leadingZero : Bool := true

/-- Reads a number: all digits at the front, which have to make a number of the form. -/
def readNumber (form : NumberForm) (cs : List Char) : Option (Nat × List Char) :=
  let (ds, rest) := readDigits form.base cs
  let value := ds.foldl (fun n d => form.base * n + d) 0
  -- All digits belong to the number, so one with too many of them is not cut short.
  if ds.isEmpty || value > form.limit || form.width.any (ds.length > ·)
      || (!form.leadingZero && ds.head? == some 0 && ds.length > 1) then none
  else some (value, rest)

/-- Reads one given character. -/
def readChar (c : Char) : List Char → Option (List Char)
  | [] => none
  | d :: rest => if c = d then some rest else none

/-- A number of an IPv4 address. -/
def octet : NumberForm := { base := 10, limit := 255, width := some 3, leadingZero := false }

/-- A group of an IPv6 address. -/
def group : NumberForm := { base := 16, limit := 65535, width := some 4 }

/-- The number of a port. -/
def portNumber : NumberForm := { base := 10, limit := 65535 }

/-- The number of a scope. -/
def scopeNumber : NumberForm := { base := 10, limit := 4294967295 }

/-- Reads four numbers with points between them. -/
def readV4 (cs : List Char) : Option ((UInt8 × UInt8 × UInt8 × UInt8) × List Char) := do
  let (a, cs) ← readNumber octet cs
  let (b, cs) ← readNumber octet (← readChar '.' cs)
  let (c, cs) ← readNumber octet (← readChar '.' cs)
  let (d, cs) ← readNumber octet (← readChar '.' cs)
  return ((.ofNat a, .ofNat b, .ofNat c, .ofNat d), cs)

/-- Groups that were read, whether the last two came as an IPv4 address, and the rest. -/
structure Groups where
  groups : List UInt16
  endsInV4 : Bool
  rest : List Char

/-- Reads up to `room` groups with colons between them; all but the first are led by a colon. Where
two groups fit, an IPv4 address is tried first, and it ends the groups. -/
def readGroups (first : Bool) (room : Nat) (cs : List Char) : Groups :=
  match room with
  | 0 => { groups := [], endsInV4 := false, rest := cs }
  | room + 1 =>
      let start := if first then some cs else readChar ':' cs
      -- An IPv4 address takes the room of two groups.
      match (if room = 0 then none else start.bind readV4) with
      | some ((a, b, c, d), rest) =>
          { groups := [.ofNat (256 * a.toNat + b.toNat), .ofNat (256 * c.toNat + d.toNat)]
            endsInV4 := true, rest }
      | none =>
          match start.bind (readNumber group) with
          | none => { groups := [], endsInV4 := false, rest := cs }
          | some (value, rest) =>
              let more := readGroups false room rest
              { more with groups := .ofNat value :: more.groups }

/-- Reads an IPv6 address: eight groups, or fewer around a `::`. -/
def readV6 (cs : List Char) : Option (List UInt16 × List Char) :=
  let head := readGroups true 8 cs
  -- With eight groups there is nothing to leave out.
  if head.groups.length = 8 then some (head.groups, head.rest)
  else if head.endsInV4 then none
  else do
    let rest ← readChar ':' (← readChar ':' head.rest)
    -- The two colons stand for at least one group.
    let tail := readGroups true (7 - head.groups.length) rest
    let zeros := 8 - head.groups.length - tail.groups.length
    return (head.groups ++ List.replicate zeros 0 ++ tail.groups, tail.rest)

/-- What was read, if nothing follows it. -/
def whole {α : Type} (read : Option (α × List Char)) : Option α :=
  read.bind fun (a, rest) => if rest.isEmpty then some a else none

/-- The address that a text means. -/
def Ip.parse? (s : String) : Option Ip :=
  match whole (readV4 s.toList) with
  | some (a, b, c, d) => some (.v4 a b c d)
  | none => (whole (readV6 s.toList)).map .v6

/-- Reads a colon and a port. -/
def readPort (cs : List Char) : Option (UInt16 × List Char) := do
  let (port, rest) ← readNumber portNumber (← readChar ':' cs)
  return (.ofNat port, rest)

/-- Reads an IPv4 address with a port. -/
def readEndpointV4 (cs : List Char) : Option (Endpoint × List Char) := do
  let ((a, b, c, d), cs) ← readV4 cs
  let (port, rest) ← readPort cs
  return ({ ip := .v4 a b c d, port }, rest)

/-- Reads a bracketed IPv6 address, perhaps with a scope, with a port. -/
def readEndpointV6 (cs : List Char) : Option (Endpoint × List Char) := do
  let (groups, cs) ← readV6 (← readChar '[' cs)
  let (scope, cs) := ((readChar '%' cs).bind (readNumber scopeNumber)).getD (0, cs)
  let (port, rest) ← readPort (← readChar ']' cs)
  return ({ ip := .v6 groups, port, scope := .ofNat scope }, rest)

/-- The address and port that a text means. -/
def Endpoint.parse? (s : String) : Option Endpoint :=
  match whole (readEndpointV4 s.toList) with
  | some endpoint => some endpoint
  | none => whole (readEndpointV6 s.toList)

/-! ## Writing -/

/-- The text of an IPv4 address. -/
def v4Text (a b c d : UInt8) : String := s!"{a.toNat}.{b.toNat}.{c.toNat}.{d.toNat}"

/-- The text of groups with colons between them. -/
def groupsText (groups : List UInt16) : String :=
  ":".intercalate (groups.map fun g => Text.Hex.number g.toNat)

/-- The length of the run of zero groups at the front. -/
def zeroRun (groups : List UInt16) : Nat := (groups.takeWhile (· == 0)).length

/-- The start and length of the first longest run of zero groups. -/
def longestZeroRun (groups : List UInt16) : Nat × Nat :=
  (List.range groups.length).foldl
    (fun best start =>
      let run := zeroRun (groups.drop start)
      if run > best.2 then (start, run) else best)
    (0, 0)

/-- The text of an IPv6 address. -/
def v6Text (groups : List UInt16) : String :=
  match groups with
  | [0, 0, 0, 0, 0, 0xffff, g, h] =>
      "::ffff:" ++ v4Text (.ofNat (g.toNat / 256)) (.ofNat g.toNat) (.ofNat (h.toNat / 256))
        (.ofNat h.toNat)
  | _ =>
      let (start, run) := longestZeroRun groups
      if run > 1 then
        groupsText (groups.take start) ++ "::" ++ groupsText (groups.drop (start + run))
      else groupsText groups

/-- The text of an address. -/
def Ip.text : Ip → String
  | v4 a b c d => v4Text a b c d
  | v6 groups => v6Text groups

/-- The text of an address with a port. -/
def Endpoint.text (e : Endpoint) : String :=
  match e.ip with
  | .v4 a b c d => v4Text a b c d ++ s!":{e.port.toNat}"
  | .v6 groups =>
      let scope := if e.scope = 0 then "" else s!"%{e.scope.toNat}"
      "[" ++ v6Text groups ++ scope ++ s!"]:{e.port.toNat}"

end Depot.Net
