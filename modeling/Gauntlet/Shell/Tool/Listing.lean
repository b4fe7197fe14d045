import Gauntlet.Shell.Tool.Removing

/-! # Listing

  The names in directories, one on a line. Operands that are no directories come first; each
  directory has a heading if there are several operands or if those below it are listed too.
-/

namespace Gauntlet.Shell.Tools.Listing

open Text

/-- A name in a list, with what it stands for if that is known. -/
structure Entry where
  name : Text
  node : Option Node

namespace Entry

def size (e : Entry) : Nat :=
  match e.node with
  | some (.file data _ _) => data.length
  | some (.link target) => target.length
  | some (.dir _ _) => 4096
  | none => 0

def time (e : Entry) : Instant := (e.node.map Node.modified).getD ⟨0, 0⟩

/-- The name, with a mark for its kind if that is asked for. -/
def shown (o : Options) (e : Entry) : Text :=
  let mark : Text := match e.node with
    | some (.dir _ _) => if o.has 'F' || o.has 'p' then "/" else []
    | some (.link _) => if o.has 'F' then "@" else []
    | some n => if o.has 'F' && n.hasExecuteBit then "*" else []
    | none => []
  e.name ++ mark

end Entry

/-- Entries in the order that is asked for. -/
def ordered (o : Options) (es : List Entry) : List Entry :=
  let named := es.mergeSort fun a b => Text.le a.name b.name
  let sorted :=
    if o.has 'U' || o.has 'f' then es
    else if o.has 'S' then named.mergeSort fun a b => b.size ≤ a.size
    else if o.has 't' then named.mergeSort fun a b => !a.time.before b.time
    else named
  if o.has 'r' then sorted.reverse else sorted

def lines (o : Options) (es : List Entry) : Text := es.flatMap fun e => e.shown o ++ "\n"

/-- How far listing has got. -/
structure State where
  said : List Saying := []
  status : Nat := 0
  /-- A heading has been written. -/
  begun : Bool := false

/-- After a complaint; one about an operand is worse. -/
def State.complaining (s : State) (given : Bool) (message : Text) : State :=
  { s with said := s.said ++ [.complaint message], status := max s.status (if given then 2 else 1) }

/-- What a name in a directory stands for: its kind is known without looking at it. -/
def lookedAt (o : Options) (d : Disk) (dir : Text) (l : Location) (searched : Bool) (s : State)
    (name : Text) : State × Entry :=
  let node := if name = Path.here || name = Path.up then some (.dir 0o755 d.now) else d.node? (l ++ [name])
  let wanted := o.has 't' || o.has 'S' || (o.has 'F' && node.any Node.isFile)
  if searched || !wanted then (s, { name, node })
  else (s.complaining false ("cannot access " ++ inQuotes (within dir name) ++ ": " ++ reason .denied),
    { name, node := none })

/-- Lists a directory, and tells which directories are to be listed next. -/
def directory (o : Options) (d : Disk) (headed given : Bool) (path : Text) (s : State) :
    State × List Text :=
  let failed (e : Errno) : State × List Text :=
    (s.complaining given ("cannot open directory " ++ inQuotes path ++ ": " ++ reason e), [])
  match d.find true path with
  | .error e => failed e
  | .ok (l, n) =>
    if !n.readable then failed .denied
    else
      let all := o.has 'a' || o.has 'f'
      let names := (if all then [Path.here, Path.up] else []) ++
        (d.names l).filter fun n => all || o.has 'A' || n.head? ≠ some (byte '.')
      let (s, found) := names.foldl (fun (s, es) name =>
        let (s, e) := lookedAt o d path l n.executable s name
        (s, es ++ [e])) (s, [])
      let es := ordered o found
      let gap : Text := if s.begun then "\n" else []
      let heading : Text := if headed then gap ++ path ++ ":\n" else []
      let below := if !o.has 'R' then [] else es.filterMap fun e =>
        if e.node.any Node.isDir && e.name ≠ Path.here && e.name ≠ Path.up then some (within path e.name)
        else none
      ({ s with said := s.said ++ [.output (heading ++ lines o es)], begun := s.begun || headed }, below)

/-- Lists directories, each with those below it right after it. -/
def directories (o : Options) (d : Disk) (headed : Bool) : (fuel : Nat) → List (Text × Bool) → State → State
  | 0, _, s => s
  | _ + 1, [], s => s
  | k + 1, (path, given) :: rest, s =>
    let (s, below) := directory o d headed given path s
    directories o d headed k (below.map (·, false) ++ rest) s

/-- What an operand stands for; a link is followed if it leads to a directory. -/
def operand (o : Options) (d : Disk) (f : Text) : Except Errno Node :=
  let itself := (d.find false f).map (·.2)
  if o.has 'd' || o.has 'F' then itself
  else match d.find true f with
    | .ok (_, n) => if n.isDir then .ok n else itself
    | .error e => if e = .missing || e = .tooManyLinks then itself else .error e

def list (o : Options) (d : Disk) (operands : List Text) : State :=
  let (s, es) : State × List Entry := operands.foldl (fun (s, es) f =>
    match operand o d f with
    | .ok n => (s, es ++ [{ name := f, node := some n }])
    | .error e => (s.complaining true ("cannot access " ++ inQuotes f ++ ": " ++ reason e), es))
    ({}, [])
  let isDir (e : Entry) : Bool := e.node.any Node.isDir && !o.has 'd'
  let files := ordered o (es.filter fun e => !isDir e)
  let dirs := ordered o (es.filter isDir)
  let gap : Text := if dirs.isEmpty then [] else "\n"
  let s := if files.isEmpty then s else { s with said := s.said ++ [.output (lines o files ++ gap)] }
  directories o d (1 < operands.length || o.has 'R') ((operands.length + 1) * (d.nodes.pairs.length + 1))
    (dirs.map fun e => (e.name, true)) s

end Gauntlet.Shell.Tools.Listing

namespace Gauntlet.Shell.Tools

open Text

def ls (d : Disk) (args : List Text) : ToolResult :=
  let known : Known :=
    { letters := ['1', 'a', 'A', 'd', 'f', 'F', 'p', 'r', 'R', 'S', 't', 'U']
      names := [("all", 'a'), ("almost-all", 'A'), ("classify", 'F'), ("directory", 'd'),
        ("recursive", 'R'), ("reverse", 'r')] }
  match arguments known (args.length + 1) args with
  | .error m => { misused d m with status := 2 }
  | .ok o =>
    let s := Listing.list o d (if o.operands.isEmpty then [Path.here] else o.operands)
    { disk := d, status := s.status, said := s.said }

end Gauntlet.Shell.Tools
