import Gauntlet.Shell.Tool

/-! # Parts of paths

  The last name of a path, with or without an ending, and the path in front of it.
-/

namespace Gauntlet.Shell.Tools

open Text

/-- The last name of a path; slashes after it do not count. -/
def lastName (p : Text) : Text :=
  let bare := Path.withoutTrailing p
  if p.isEmpty then []
  else if bare.isEmpty then [Path.slash]
  else (bare.reverse.takeWhile (· ≠ Path.slash)).reverse

def leadingPath (p : Text) : Text :=
  let lead := ((Path.withoutTrailing p).reverse.dropWhile (· ≠ Path.slash)).reverse
  let bare := Path.withoutTrailing lead
  if !bare.isEmpty then bare else if Path.isAbsolute p then [Path.slash] else Path.here

/-- A name without an ending, unless it is nothing else. -/
def withoutEnding (ending name : Text) : Text :=
  if name ≠ ending && name ≠ [Path.slash] && endsWith name ending then
    name.take (name.length - ending.length)
  else name

/-- Writes texts, one on a line or with zero bytes after them. -/
def writing (d : Disk) (o : Options) (ts : List Text) : ToolResult :=
  let stop : UInt8 := if o.has 'z' then 0 else 10
  { disk := d, said := [.output (ts.flatMap fun t => t ++ [stop])] }

def basename (d : Disk) (args : List Text) : ToolResult :=
  let known : Known :=
    { letters := ['a', 'z'], valued := ['s'], leading := true
      names := [("multiple", 'a'), ("suffix", 's'), ("zero", 'z')] }
  opting d known args fun o =>
    if o.has 'a' || o.has 's' then
      if o.operands.isEmpty then misused d "missing operand"
      else writing d o (o.operands.map fun p => withoutEnding ((o.value? 's').getD []) (lastName p))
    else match o.operands with
      | [] => misused d "missing operand"
      | [p] => writing d o [lastName p]
      | [p, ending] => writing d o [withoutEnding ending (lastName p)]
      | _ :: _ :: extra :: _ => misused d ("extra operand " ++ quoted extra)

def dirname (d : Disk) (args : List Text) : ToolResult :=
  let known : Known := { letters := ['z'], leading := true, names := [("zero", 'z')] }
  opting d known args fun o =>
    if o.operands.isEmpty then misused d "missing operand"
    else writing d o (o.operands.map leadingPath)

end Gauntlet.Shell.Tools
