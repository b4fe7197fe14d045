import Gauntlet.Service.Host

/-! # Listening addresses

  An address to listen on is a host and a port with a colon between them; a host
  that holds colons stands in brackets. The port is a number or the name of a
  well-known service, and an empty port lets the system choose. An address that reads
  well may still be refused: its port is reserved or in use, or no interface has it.
-/

namespace Gauntlet.Service

open Text

/-- Why an address cannot be listened on. -/
inductive AddressFault where
  | missingPort (address : Text)
  | manyColons (address : Text)
  | missingBracket (address : Text)
  | strayBracket (bracket : Char) (address : Text)
  | invalidPort (port : Text)
  | unknownPort (port : Text)
  | unknownHost (host : Text)
  | refused (address reason : Text)
  deriving DecidableEq, Repr

def AddressFault.message : AddressFault → Text
  | missingPort a => "listen tcp: address " ++ a ++ ": missing port in address"
  | manyColons a => "listen tcp: address " ++ a ++ ": too many colons in address"
  | missingBracket a => "listen tcp: address " ++ a ++ ": missing ']' in address"
  | strayBracket b a =>
    "listen tcp: address " ++ a ++ ": unexpected '" ++ Text.single b ++ "' in address"
  | invalidPort p => "listen tcp: address " ++ p ++ ": invalid port"
  | unknownPort p => "listen tcp: lookup tcp/" ++ p ++ ": unknown port"
  | unknownHost h => "listen tcp: lookup " ++ h ++ ": no such host"
  | refused a r => "listen tcp " ++ a ++ ": bind: " ++ r

/-- A host with a port, not yet read. -/
structure HostPort where
  host : Text
  port : Text
  deriving DecidableEq, Repr

/-- The host and port once the position of the last colon is known; the texts
    `opened` and `closed` may hold no further bracket of their kind. -/
def checked (address host port opened closed : Text) : Except AddressFault HostPort :=
  if opened.contains (byte '[') then .error (.strayBracket '[' address)
  else if closed.contains (byte ']') then .error (.strayBracket ']' address)
  else .ok ⟨host, port⟩

/-- Cuts an address at its last colon. -/
def split (address : Text) : Except AddressFault HostPort :=
  match cutLast? (byte ':') address with
  | none => .error (.missingPort address)
  | some (lead, port) =>
    match address with
    | b :: rest =>
      if b ≠ byte '[' then
        if lead.contains (byte ':') then .error (.manyColons address)
        else checked address lead port address address
      else match cut? (byte ']') rest with
        | none => .error (.missingBracket address)
        | some (host, after) =>
          match after with
          | c :: after' =>
            if c ≠ byte ':' then .error (.missingPort address)
            else if after'.contains (byte ':') then .error (.manyColons address)
            else checked address host port rest after
          | [] => .error (.missingPort address)
    | [] => .error (.missingPort address)

/-! ### Ports -/

def knownPorts : List (Text × Nat) :=
  [("domain", 53), ("ftp", 21), ("ftps", 990), ("gopher", 70), ("http", 80), ("https", 443),
   ("imap2", 143), ("imap3", 220), ("imaps", 993), ("pop3", 110), ("pop3s", 995), ("smtp", 25),
   ("submissions", 465), ("ssh", 22), ("telnet", 23)]

/-- The magnitude from which a port number is out of reach. -/
def portCutoff : UInt32 := 0x40000000

/-- The value of a row of digits in 32 bits, multiplication wrapping around; `none` if a
    byte that is no digit comes before the value has reached the cutoff. -/
def portDigits : (value : UInt32) → Text → Option UInt32
  | n, [] => some n
  | n, b :: t =>
    if !isDigit b then none
    else if portCutoff ≤ n then some 0xFFFFFFFF
    else
      let shifted := n * 10
      let next := shifted + (b.toUInt32 - 48)
      if next < shifted then some 0xFFFFFFFF else portDigits next t

def port (t : Text) : Except AddressFault Nat :=
  let negative := t.head? = some (byte '-')
  let digits := if negative || t.head? = some (byte '+') then t.drop 1 else t
  match portDigits 0 digits with
  | some n =>
    if 65535 < n || (negative && 0 < n) then .error (.invalidPort t) else .ok n.toNat
  | none =>
    match knownPorts.lookup t.lower with
    | some n => .ok n
    | none => .error (.unknownPort t)

/-! ### Binding -/

/-- A host and a port, read. -/
structure Binding where
  host : Host
  port : Nat
  deriving DecidableEq, Repr

def join (host port : Text) : Text :=
  (if host.contains (byte ':') then "[" ++ host ++ "]" else host) ++ ":" ++ port

def Binding.text (b : Binding) : Text := join b.host.text (Numeral.ofNat b.port)

/-- The port is kept for the system. -/
def Binding.reserved (b : Binding) : Bool := 0 < b.port && b.port < 1024

/-- Two bindings cannot be held at a time: they have a port in common, and one of them is
    for every interface or both are for the same. Port zero stands for one that is free. -/
def Binding.conflicts (a b : Binding) : Bool :=
  a.port ≠ 0 && a.port = b.port &&
    match a.host, b.host with
    | .every _, _ => true
    | _, .every _ => true
    | h, k => h = k

/-- The number of the interface that a zone names: the loopback is the first, and other
    zones are numbers. -/
def zoneNumber (zone : Text) : Nat :=
  if zone = "lo" then 1
  else Numeral.value (zone.takeWhile isDigit)

/-- Why groups cannot be bound: no interface has such an address, and those that belong to
    a link need a zone. -/
def groupsRefusal (gs : List Nat) (zone : Text) : Text :=
  let first := gs.headD 0
  if 0xFE80 ≤ first && first ≤ 0xFEBF then
    match zoneNumber zone with
    | 0 => "invalid argument"
    | 1 => "cannot assign requested address"
    | _ => "no such device"
  else "cannot assign requested address"

/-- Why a binding is refused while others are held. No interface is up, so that octets
    are not checked against one. -/
def Binding.refusal? (held : List Binding) (b : Binding) : Option Text :=
  match b.host with
  | .groups gs zone =>
    if 0xFF00 ≤ gs.headD 0 then some "invalid argument"
    else if b.reserved then some "permission denied"
    else some (groupsRefusal gs zone)
  | _ =>
    if b.reserved then some "permission denied"
    else if held.any b.conflicts then some "address already in use"
    else none

/-- The binding that an address asks for, if it can be listened on while others are held. -/
def listen (held : List Binding) (address : Text) : Except AddressFault Binding :=
  match split address with
  | .error e => .error e
  | .ok hp =>
    match port hp.port with
    | .error e => .error e
    | .ok n =>
      match Host.read? hp.host with
      | none => .error (.unknownHost hp.host)
      | some host =>
        let b : Binding := ⟨host, n⟩
        match b.refusal? held with
        | some reason => .error (.refused b.text reason)
        | none => .ok b

end Gauntlet.Service
