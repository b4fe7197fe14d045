import Gauntlet.Path
import Gauntlet.Shell.Script

/-! # Home directories

  A tilde at the start of a word stands for a home directory: that of the user whose name
  follows it, or the process's own. In an assignment a tilde after a colon does so too.
-/

namespace Gauntlet.Shell.Home

open Text

def users : List (Text × Text) :=
  [("root", "/root"), ("daemon", "/usr/sbin"), ("bin", "/bin"), ("sys", "/dev"), ("sync", "/bin"),
   ("games", "/usr/games"), ("man", "/var/cache/man"), ("lp", "/var/spool/lpd"),
   ("mail", "/var/mail"), ("news", "/var/spool/news"), ("uucp", "/var/spool/uucp"),
   ("proxy", "/bin"), ("www-data", "/var/www"), ("backup", "/var/backups"), ("list", "/var/list"),
   ("irc", "/run/ircd"), ("nobody", "/nonexistent")]

/-- The home directory of a user; the empty name stands for the process's own. -/
def of? (own : Option Text) (user : Text) : Option Text :=
  if user.isEmpty then own else users.lookup user

/-- Where tildes are looked for. -/
structure Search where
  /-- The process's own home directory. -/
  own : Option Text
  /-- The word is assigned, so that colons part it. -/
  assigned : Bool

namespace Search

def endsName (s : Search) (b : UInt8) : Bool := b = Path.slash || (s.assigned && b = byte ':')

/-- The pieces of a text outside quotes; `start` tells that a tilde may stand at its start,
    and `final` that nothing follows it in its word. -/
def inText (s : Search) (final : Bool) : (fuel : Nat) → (start : Bool) → Text → Word
  | 0, _, t => [.bare t]
  | _ + 1, _, [] => []
  | n + 1, start, b :: t =>
    let user := t.takeWhile fun c => !s.endsName c
    let rest := t.drop user.length
    match if start && b = byte '~' && (final || !rest.isEmpty) then of? s.own user else none with
    | some home =>
      (if home.isEmpty then [] else [.fixed home]) ++ inText s final n false rest
    | none =>
      let front := if s.assigned then (b :: t).takeWhile (· ≠ byte ':') else b :: t
      match (b :: t).drop front.length with
      | c :: more => .bare (front ++ [c]) :: inText s final n true more
      | [] => [.bare front]

/-- A word with home directories in the places of tildes. -/
def inWord (s : Search) : (start : Bool) → Word → Word
  | _, [] => []
  | start, p :: rest =>
    match p with
    | .bare t =>
      if !t.contains (byte '~') && !s.assigned then p :: rest
      else
        s.inText rest.isEmpty (t.length + 1) start t ++
          inWord s (s.assigned && t.getLast? = some (byte ':')) rest
    | p => p :: inWord s false rest

end Search

end Gauntlet.Shell.Home
