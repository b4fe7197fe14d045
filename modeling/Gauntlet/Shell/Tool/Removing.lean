import Gauntlet.Shell.Tool

/-! # Removing

  Files are removed one by one, whole trees from the bottom up. What cannot be removed stays,
  and so do the directories above it.
-/

namespace Gauntlet.Shell.Tools

open Text

def within (dir name : Text) : Text :=
  if dir.getLast? = some Path.slash then dir ++ name else dir ++ "/" ++ name

/-- The last component of a path is the directory itself or the one above it. -/
def isDots (f : Text) : Bool :=
  let last := Path.base f
  last = Path.here || last = Path.up

/-- Removes what a path names, which is known to be there. -/
def removeOne (o : Options) (f : Text) (isDir : Bool) (p : Progress) : Except Errno Progress :=
  match p.disk.remove f with
  | .error e => .error e.errno
  | .ok disk =>
    let p := { p with disk }
    let what : Text := if isDir then "removed directory " else "removed "
    .ok (if o.has 'v' then p.saying (what ++ inQuotes f) else p)

/-- Removes what a path names, with what is below it if that is asked for. -/
def removePath (o : Options) : (fuel : Nat) → Text → Progress → Progress
  | 0, _, p => p
  | k + 1, f, p =>
    let refused (p : Progress) (e : Errno) : Progress :=
      p.complaining ("cannot remove " ++ inQuotes f ++ ": " ++ reason e)
    let finish (p : Progress) (isDir : Bool) : Progress :=
      match removeOne o f isDir p with
      | .ok p => p
      | .error e => refused p e
    match p.disk.lstat f with
    | .error e =>
      if o.has 'f' && (e.errno = .missing || e.errno = .notDirectory) then p else refused p e.errno
    | .ok (l, n) =>
      if !n.isDir then finish p false
      else if !(o.has 'r' || o.has 'R') then
        if o.has 'd' then finish p true else refused p .isDirectory
      else if l.isEmpty then
        (p.complaining ("it is dangerous to operate recursively on " ++ inQuotes f)).complaining
          "use --no-preserve-root to override this failsafe"
      else if isDots f then
        p.complaining ("refusing to remove '.' or '..' directory: skipping " ++ inQuotes f)
      else if !n.readable then
        match removeOne o f true p with
        | .ok p => p
        | .error e => refused p (if e = .notEmpty then .denied else e)
      else
        let q := (p.disk.names l).foldl (fun q name => removePath o k (within f name) q)
          { p with failed := false }
        let q := if q.failed then q else finish q true
        { q with failed := p.failed || q.failed }

def rm (d : Disk) (args : List Text) : ToolResult :=
  let known : Known :=
    { letters := ['r', 'R', 'f', 'd', 'v', 'I']
      names := [("recursive", 'r'), ("force", 'f'), ("dir", 'd'), ("verbose", 'v'),
        ("preserve-root", 'I'), ("no-preserve-root", 'I'), ("one-file-system", 'I')] }
  opting d known args fun o =>
    if o.operands.isEmpty && !o.has 'f' then misused d "missing operand"
    else (o.operands.foldl (fun p f => removePath o (d.nodes.pairs.length + 1) f p)
      { disk := d }).result

/-- The paths above a path that its components name, lowest first. -/
def pathsAbove : (fuel : Nat) → Text → List Text
  | 0, _ => []
  | k + 1, p =>
    match Disk.container? p with
    | some c => Path.withoutTrailing c :: pathsAbove k c
    | none => []

/-- Removes one directory; nothing is done any more once one has stayed. -/
def removeDirectory (o : Options) (what : Text) (s : Progress × Bool) (f : Text) : Progress × Bool :=
  if !s.2 then s
  else
    let p := if o.has 'v' then s.1.saying ("rmdir: removing directory, " ++ inQuotes f) else s.1
    let failed (e : Errno) : Progress × Bool :=
      (if e = .notEmpty && o.has 'i' then p
        else p.complaining ("failed to remove " ++ what ++ inQuotes f ++ ": " ++ reason e), false)
    match p.disk.lstat f with
    | .error e => failed e.errno
    | .ok (l, n) =>
      if !n.isDir then failed (if p.disk.changeable l.dropLast then .notDirectory else .denied)
      else match p.disk.remove f with
        | .ok disk => ({ p with disk }, true)
        | .error e => failed e.errno

def rmdir (d : Disk) (args : List Text) : ToolResult :=
  let known : Known :=
    { letters := ['p', 'v']
      names := [("parents", 'p'), ("verbose", 'v'), ("ignore-fail-on-non-empty", 'i')] }
  opting d known args fun o =>
    if o.operands.isEmpty then misused d "missing operand"
    else (o.operands.foldl (fun p f =>
      let above := if o.has 'p' then pathsAbove (f.length + 1) f else []
      (above.foldl (removeDirectory o "directory ") (removeDirectory o [] (p, true) f)).1)
      { disk := d }).result

end Gauntlet.Shell.Tools
