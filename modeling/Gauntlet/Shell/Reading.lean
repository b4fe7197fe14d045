import Gauntlet.Shell.Source

/-! # Reading shell scripts

  Statements are read from the text of a script, a line at a time: a line that is well
  formed runs before the next one is looked at. Every function takes a bound on the depth
  of the reading; a multiple of the number of letters is enough.
-/

namespace Gauntlet.Shell.Reading

open Reader

/-- Where pieces stand. -/
structure Place where
  braced : Bool := false
  /-- The document that the pieces belong to. -/
  document : Option Awaited := none
  /-- The pieces are the mark of a document, in which nothing is expanded. -/
  verbatim : Bool := false

/-- What a token is taken for. -/
structure Look where
  /-- Line breaks in front of it are left out. -/
  newlines : Bool := false
  /-- A word may be a keyword. -/
  keywords : Bool := false
  /-- A word may stand for other text. -/
  aliases : Bool := false
  /-- Nothing in a word is expanded. -/
  verbatim : Bool := false

/-- The look at the beginning of a statement that may be on a later line. -/
def Look.fresh : Look := { newlines := true, keywords := true, aliases := true }

/-- A piece after others, of which the last comes first; text is joined. -/
def push (p : Piece) (acc : List Piece) : List Piece :=
  match p, acc with
  | .bare a, .bare b :: rest => .bare (b ++ a) :: rest
  | .fixed a, .fixed b :: rest => .fixed (b ++ a) :: rest
  | p, acc => p :: acc

/-- The pieces of quoted text after others: even empty quotes make a word, unless they hold
    nothing but the list of arguments. -/
def pushQuoted (ps acc : List Piece) : List Piece :=
  match ps with
  | [.value [64] .plain [] true] => ps ++ acc
  | _ => ps.foldl (fun acc p => push p acc) (push (.fixed []) acc)

def singleQuoted : Reader Text := fun s =>
  let body := s.rest.takeWhile (· ≠ '\'')
  let line := s.line + body.count '\n'
  match s.rest.drop body.length with
  | [] => .error (.unterminatedQuote, line)
  | _ :: rest => .ok (textOf body, { s with rest, line })

/-- The rest of a script in grave accents; within double quotes a quote may be escaped. -/
def accented (quoted : Bool) : (fuel : Nat) → Reader (List Char)
  | 0 => fail .unterminatedAccent
  | n + 1 => do
    match ← peek with
    | none => fail .unterminatedAccent
    | some '\\' =>
      advance
      match ← peekRaw with
      | none => fail .unterminatedAccent
      | some d =>
        advance
        let rest ← accented quoted n
        if "\\\x60$".toList.contains d || (quoted && d = '"') then return d :: rest
        else return '\\' :: d :: rest
    | some c =>
      advance
      if c = '\x60' then return [] else return c :: (← accented quoted n)

/-- The lines of a document in which nothing is expanded. -/
def literalLines (a : Awaited) : (fuel : Nat) → Reader Text
  | 0 => return []
  | n + 1 => do
    let s ← get
    let line := s.rest.takeWhile (· ≠ '\n')
    match s.rest.drop line.length with
    | [] =>
      set { s with rest := [] }
      return textOf line
    | _ :: rest =>
      set { s with rest, line := s.line + 1 }
      if ← atMark a then return textOf line ++ "\n"
      else return textOf line ++ "\n" ++ (← literalLines a n)

/-- The redirection sign at the start; a digit in front of it is the stream. -/
def arrow (stream : Option Nat) : Reader Arrow := do
  let c ← peek
  advance
  let d ← peek
  if c = some '>' then
    let stream := stream.getD 1
    match d with
    | some '>' => advance; return .file stream .adding
    | some '|' => advance; return .file stream .replacing
    | some '&' => advance; return .like stream
    | _ => return .file stream .writing
  else
    let stream := stream.getD 0
    match d with
    | some '<' =>
      advance
      if (← peek) = some '-' then
        advance
        return .document stream true
      else return .document stream false
    | some '&' => advance; return .like stream
    | some '>' => advance; return .file stream .updating
    | _ => return .file stream .reading

/-- The stream in front of a redirection sign, if the pieces are one or none. -/
def stream? : List Piece → Option (Option Nat)
  | [] => some none
  | [.bare [b]] => if Text.isDigit b then some (some (b.toNat - 48)) else none
  | _ => none

/-- The text of pieces in which nothing is expanded. -/
def verbatimText (ps : List Piece) : Text :=
  ps.flatMap fun
    | .bare t => t
    | .fixed t => t
    | _ => []

/-- Puts the text that a word stands for in its place, unless that is being done already. -/
def replace (t : Token) : Reader Bool := do
  let s ← get
  let size := s.rest.length
  match t.plain?.bind fun w => (s.aliases.lookup w).map (w, ·) with
  | some (w, value) =>
    if s.replaced.any fun r => r.word = w && r.behind ≤ size then return false
    else
      let spaced := value.getLast?.any fun b => b = 32 || b = 9
      set { s with
        rest := letters value ++ s.rest
        replaced := { word := w, behind := size, spaced } :: s.replaced }
      return true
  | none => return false

/-- Going on from where `size` letters were left has led past the end of a text that ends in a
    blank. -/
def passedBlank (size : Nat) : Reader Bool := do
  let s ← get
  return s.replaced.any fun r => r.spaced && r.behind < size && s.rest.length < r.behind

/-- The names that no function can have. -/
def reservedNames : List Text :=
  [".", ":", "break", "continue", "eval", "exec", "exit", "export", "readonly", "return", "set",
   "shift", "times", "trap", "unset"]

/-- What has been read of a simple command, last parts first. -/
structure Draft where
  assignments : List (Text × Word) := []
  words : List Word := []
  redirects : List Redirect := []

def Draft.statement (d : Draft) (line : Nat) : Statement :=
  .simple line d.assignments.reverse d.words.reverse d.redirects.reverse

/-- The name of the function that begins here, if the command can be one. -/
def Draft.functionWord? (d : Draft) : Option Word :=
  match d with
  | ⟨[], [w], []⟩ => some w
  | _ => none

def redirecting (line : Nat) (s : Statement) (rs : List Redirect) : Statement :=
  match rs, s with
  | [], _ => s
  | _, .apart l body _ => .apart l body rs
  | _, _ => .redirected line s rs

mutual

/-- Pieces outside quotes: up to the end of a word or, in braces, up to the closing one. -/
def bare : (fuel : Nat) → Place → (acc : List Piece) → (quoted : Bool) →
    Reader (List Piece × Bool)
  | 0, _, _, _ => fail .missingBrace
  | n + 1, p, acc, quoted => do
    match ← peek with
    | none => if p.braced then fail .missingBrace else return (acc.reverse, quoted)
    | some '\\' =>
      advance
      match ← peekRaw with
      | none => bare n p (push (.fixed "\\") acc) true
      | some d =>
        advance
        bare n p (push (.fixed [Text.byte d]) acc) true
    | some '\'' =>
      advance
      bare n p (push (.fixed (← singleQuoted)) acc) true
    | some '"' =>
      advance
      let ps ← double n { verbatim := p.verbatim } false []
      bare n p (pushQuoted ps acc) true
    | some '\n' =>
      if p.braced then
        advance
        match p.document with
        | some a => if ← atMark a then fail .missingBrace
        | none => pure ()
        bare n p (push (.bare "\n") acc) quoted
      else return (acc.reverse, quoted)
    | some c =>
      let literal : Reader (List Piece × Bool) := do
        advance
        bare n p (push (.bare [Text.byte c]) acc) quoted
      if c = '}' && p.braced then
        advance
        return (acc.reverse, quoted)
      else if c = '$' && !p.verbatim then
        advance
        bare n p (push (← dollar n false p) acc) quoted
      else if c = '\x60' && !p.verbatim then
        advance
        bare n p (push (← accent n false) acc) quoted
      else if endsWord c && !p.braced then return (acc.reverse, quoted)
      else literal

/-- Pieces in double quotes, in a document, or in the braces of a parameter there. In
    braces `inner` tells that further quotes are open, so that a brace does not close. -/
def double : (fuel : Nat) → Place → (inner : Bool) → (acc : List Piece) → Reader (List Piece)
  | 0, _, _, _ => fail .unterminatedQuote
  | n + 1, p, inner, acc => do
    match ← peek with
    | none =>
      if p.document.isNone then fail .unterminatedQuote
      else if p.braced then fail .missingBrace
      else return acc.reverse
    | some '\\' =>
      advance
      match ← peekRaw with
      | none => double n p inner (push (.fixed "\\") acc)
      | some d =>
        advance
        let kept := !"\\\x60$".toList.contains d && (d ≠ '"' || (p.document.isSome && !p.braced)) &&
          (d ≠ '}' || !p.braced)
        let t : Text := if kept then [Text.byte '\\', Text.byte d] else [Text.byte d]
        double n p inner (push (.fixed t) acc)
    | some '\n' =>
      advance
      let acc := push (.fixed "\n") acc
      match p.document with
      | some a =>
        if ← atMark a then
          if p.braced then fail .missingBrace else return acc.reverse
        else double n p inner acc
      | none => double n p inner acc
    | some c =>
      let literal : Reader (List Piece) := do
        advance
        double n p inner (push (.fixed [Text.byte c]) acc)
      if c = '"' then
        if p.braced then
          advance
          double n p (!inner) (push (.fixed []) acc)
        else if p.document.isSome then literal
        else
          advance
          return acc.reverse
      else if c = '}' && p.braced && !inner then
        advance
        return acc.reverse
      else if c = '$' && !p.verbatim then
        advance
        double n p inner (push (← dollar n true p) acc)
      else if c = '\x60' && !p.verbatim then
        advance
        double n p inner (push (← accent n true) acc)
      else literal

/-- An integer expression, up to its two closing parentheses. -/
def expression : (fuel : Nat) → (depth : Nat) → (acc : List Piece) → Reader (List Piece)
  | 0, _, _ => fail .missingParentheses
  | n + 1, depth, acc => do
    match ← peek with
    | none => fail .missingParentheses
    | some '(' =>
      advance
      expression n (depth + 1) (push (.fixed "(") acc)
    | some ')' =>
      advance
      if 0 < depth then expression n (depth - 1) (push (.fixed ")") acc)
      else if (← peek) = some ')' then
        advance
        return acc.reverse
      else expression n 0 (push (.fixed ")") acc)
    | some '\\' =>
      advance
      match ← peekRaw with
      | none => expression n depth (push (.fixed "\\") acc)
      | some d =>
        advance
        let t : Text := if "\\\x60$\"".toList.contains d then [Text.byte d]
          else [Text.byte '\\', Text.byte d]
        expression n depth (push (.fixed t) acc)
    | some '$' =>
      advance
      expression n depth (push (← dollar n true {}) acc)
    | some c =>
      advance
      if c = '\x60' then expression n depth (push (← accent n true) acc)
      else expression n depth (push (.fixed [Text.byte c]) acc)

/-- What a dollar sign stands for. -/
def dollar : (fuel : Nat) → (quoted : Bool) → Place → Reader Piece
  | 0, _, _ => fail .missingBrace
  | n + 1, quoted, p => do
    let itself : Piece := if quoted then .fixed "$" else .bare "$"
    match ← peek with
    | none => return itself
    | some c =>
      if c = '(' then
        advance
        if (← peek) = some '(' then
          advance
          return .number (← expression n 0 []) quoted
        else
          let awaited := (← get).awaited
          modify fun s => { s with awaited := [] }
          let body ← list n false true []
          let t ← token n {}
          if !t.isSign ")" then unexpected t (some ")")
          documents n
          modify fun s => { s with awaited }
          return .output body quoted
      else if c = '{' then
        advance
        braces n quoted p
      else if beginsName c then
        return .value (textOf (← takeWhile isNameLetter (← remaining))) .plain [] quoted
      else if isSpecial c then
        advance
        return .value [Text.byte c] .plain [] quoted
      else return itself

def braces : (fuel : Nat) → (quoted : Bool) → Place → Reader Piece
  | 0, _, _ => fail .missingBrace
  | n + 1, quoted, p => do
    let senseless : Reader Piece := do
      let operand ← operand n quoted false p
      return .value [] .senseless operand quoted
    match ← peek with
    | none => senseless
    | some '}' => senseless
    | some '#' =>
      advance
      match ← peek with
      | none => shape n quoted p "#"
      | some c =>
        if isNameLetter c then
          let known := if beginsName c then isNameLetter else Char.isDigit
          let name := textOf (← takeWhile known (← remaining))
          if (← peek) = some '}' then
            advance
            return .value name .length [] quoted
          else senseless
        else if c = '}' then shape n quoted p "#"
        else
          let following := (joined (← get).rest.tail).2
          if following.head? ≠ some '}' then shape n quoted p "#"
          else
            advance
            if isSpecial c then
              let _ ← peek
              advance
              return .value [Text.byte c] .length [] quoted
            else senseless
    | some c =>
      if beginsName c then
        shape n quoted p (textOf (← takeWhile isNameLetter (← remaining)))
      else if c.isDigit then
        shape n quoted p (textOf (← takeWhile Char.isDigit (← remaining)))
      else
        advance
        if isSpecial c then shape n quoted p [Text.byte c] else senseless

/-- What is done with a parameter in braces, up to the closing one. -/
def shape : (fuel : Nat) → (quoted : Bool) → Place → (name : Text) → Reader Piece
  | 0, _, _, _ => fail .missingBrace
  | n + 1, quoted, p, name => do
    let ending (f : Shape) : Reader Piece := do
      advance
      return .value name f (← operand n quoted false p) quoted
    let test (orEmpty : Bool) (c : Option Char) : Reader Piece :=
      match c with
      | some '-' => ending (.orElse orEmpty)
      | some '=' => ending (.assign orEmpty)
      | some '+' => ending (.instead orEmpty)
      | some '?' => ending (.required orEmpty)
      | some '}' => do
        advance
        let _ ← operand n quoted false p
        return .value name .plain [] quoted
      | _ => ending .senseless
    let trim (sign : Char) (f : Bool → Shape) : Reader Piece := do
      advance
      let longest := (← peek) = some sign
      if longest then advance
      return .value name (f longest) (← operand n quoted true p) quoted
    match ← peek with
    | some '}' =>
      advance
      return .value name .plain [] quoted
    | some ':' =>
      advance
      test true (← peek)
    | some '#' => trim '#' .withoutStart
    | some '%' => trim '%' .withoutEnd
    | c => test false c

/-- The operand of a parameter in braces, and the closing brace; the operand of a cut is
    read as if it stood outside quotes. -/
def operand : (fuel : Nat) → (quoted : Bool) → (cutting : Bool) → Place → Reader (List Piece)
  | 0, _, _, _ => fail .missingBrace
  | n + 1, quoted, cutting, p => do
    let p := { p with braced := true }
    if quoted && !cutting then double n p false [] else return (← bare n p [] false).1

/-- The script in grave accents, which is read as one of its own. -/
def accent : (fuel : Nat) → (quoted : Bool) → Reader Piece
  | 0, _ => fail .unterminatedAccent
  | n + 1, quoted => do
    let inside ← accented quoted (← remaining)
    let outer ← get
    set { outer with rest := inside, line := 1, returned := none, awaited := [] }
    let body ← list n false true []
    documents n
    modify fun s => { outer with documents := s.documents, nextDocument := s.nextDocument }
    return .output body quoted

/-- The next token as it stands. -/
def lexeme : (fuel : Nat) → (verbatim : Bool) → Reader Token
  | 0, _ => return .ended
  | n + 1, verbatim => do
    match (← get).returned with
    | some t =>
      modify fun s => { s with returned := none }
      return t
    | none =>
      let doubled (c : Char) (one two : String) : Reader Token := do
        advance
        if (← peek) = some c then
          advance
          return .sign two
        else return .sign one
      match ← peek with
      | none => return .ended
      | some ' ' => advance; lexeme n verbatim
      | some '\t' => advance; lexeme n verbatim
      | some '#' => skipComment; lexeme n verbatim
      | some '\n' => advance; return .newline
      | some '&' => doubled '&' "&" "&&"
      | some '|' => doubled '|' "|" "||"
      | some ';' => doubled ';' ";" ";;"
      | some '(' => advance; return .sign "("
      | some ')' => advance; return .sign ")"
      | some _ =>
        let (ps, quoted) ← bare n { verbatim } [] false
        let c ← peek
        match if (c = some '<' || c = some '>') && !quoted then stream? ps else none with
        | some stream => return .arrow (← arrow stream)
        | none => return .word ps quoted

def token : (fuel : Nat) → Look → Reader Token
  | 0, _ => return .ended
  | n + 1, look => do
    let before ← remaining
    let t ← lexeme n look.verbatim
    let look := { look with aliases := look.aliases || (← passedBlank before) }
    match t with
    | .newline =>
      if look.newlines then
        documents n
        token n look
      else return .newline
    | t =>
      match if look.keywords then t.asKeyword else t with
      | .word w quoted =>
        if look.aliases then
          if ← replace (.word w quoted) then token n look else return .word w quoted
        else return .word w quoted
      | t => return t

def documents : (fuel : Nat) → Reader Unit
  | 0 => return ()
  | n + 1 => do
    let s ← get
    match s.awaited with
    | [] => return ()
    | a :: rest =>
      set { s with awaited := rest }
      let w ← document n a
      modify fun s => { s with documents := (a.number, w) :: s.documents }
      documents n

def document : (fuel : Nat) → Awaited → Reader Word
  | 0, _ => return []
  | n + 1, a => do
    if ← atMark a then return []
    else if a.literal then return [.fixed (← literalLines a ((← remaining) + 1))]
    else double n { document := some a } false []

def redirect : (fuel : Nat) → Arrow → Reader Redirect
  | 0, _ => unexpected .ended none
  | n + 1, a => do
    let verbatim := match a with
      | .document _ _ => true
      | _ => false
    match ← token n { verbatim } with
    | .word w quoted =>
      match a with
      | .file stream access => return .file stream access w
      | .like stream => return .like stream w
      | .document stream stripped =>
        return .document stream (← await (letters (verbatimText w)) stripped quoted)
    | t => unexpected t none

/-- A simple command, or a function. -/
def simple : (fuel : Nat) → (line : Nat) → Draft → Reader Statement
  | 0, line, d => return d.statement line
  | n + 1, line, d => do
    match ← token n { aliases := d.words.isEmpty } with
    | .word w _ =>
      match if d.words.isEmpty then assignmentOf? w else none with
      | some a => simple n line { d with assignments := a :: d.assignments }
      | none => simple n line { d with words := w :: d.words }
    | .arrow a =>
      let r ← redirect n a
      simple n line { d with redirects := r :: d.redirects }
    | t =>
      match if t.isSign "(" then d.functionWord? else none with
      | some w =>
        let t ← token n {}
        if !t.isSign ")" then unexpected t (some ")")
        match w with
        | [.bare name] =>
          if isName (letters name) && !reservedNames.contains name then
            return .define name (← command n .fresh)
          else fail .badFunctionName
        | _ => fail .badFunctionName
      | none =>
        giveBack t
        return d.statement line

/-- The conditions and bodies of a branching statement. -/
def arms : (fuel : Nat) →
    Reader (List (List Statement × List Statement) × Option (List Statement))
  | 0 => unexpected .ended (some "fi")
  | n + 1 => do
    let condition ← list n false false []
    let t ← token n {}
    if !t.isKeyword "then" then unexpected t (some "then")
    let body ← list n false false []
    let t ← token n {}
    if t.isKeyword "elif" then
      let (more, last) ← arms n
      return ((condition, body) :: more, last)
    else if t.isKeyword "else" then
      return ([(condition, body)], some (← list n false false []))
    else
      giveBack t
      return ([(condition, body)], none)

/-- The words after a sign, up to the first token that is none. -/
def items : (fuel : Nat) → Reader (List Word × Token)
  | 0 => return ([], .ended)
  | n + 1 => do
    match ← token n {} with
    | .word w _ =>
      let (ws, t) ← items n
      return (w :: ws, t)
    | t => return ([], t)

/-- The patterns of an arm, of which the first token has been read, and the token after
    them. -/
def patterns : (fuel : Nat) → Token → Reader (List Word × Token)
  | 0, t => return ([], t)
  | n + 1, t => do
    let w : Word := match t with
      | .word w _ => w
      | .keyword k => [.bare (Text.ofString k)]
      | _ => []
    let next ← token n {}
    if next.isSign "|" then
      let (ws, t) ← patterns n (← token n {})
      return (w :: ws, t)
    else return ([w], next)

/-- The arms of a choice, up to the end of it. -/
def choices : (fuel : Nat) → Reader (List (List Word × List Statement))
  | 0 => unexpected .ended (some ";;")
  | n + 1 => do
    let t ← token n { newlines := true, keywords := true }
    if t.isKeyword "esac" then return []
    else
      let first ← if t.isSign "(" then token n {} else pure t
      let (ws, t) ← patterns n first
      if !t.isSign ")" then unexpected t (some ")")
      let body ← list n false true []
      let t ← token n { newlines := true, keywords := true }
      if t.isKeyword "esac" then return [(ws, body)]
      else if t.isSign ";;" then return (ws, body) :: (← choices n)
      else unexpected t (some ";;")

/-- A loop over words, of which the keyword has been read. -/
def each : (fuel : Nat) → (line : Nat) → Reader Statement
  | 0, _ => unexpected .ended (some "do")
  | n + 1, line => do
    match (← token n {}).plain? with
    | none => fail .badLoopVariable
    | some name =>
      if !isName (letters name) then fail .badLoopVariable
      let t ← token n .fresh
      let ws ← if t.isKeyword "in" then do
          let (ws, t) ← items n
          match t with
          | .newline => pure ()
          | t => if !t.isSign ";" then unexpected t none
          pure (some ws)
        else do
          if !t.isSign ";" then giveBack t
          pure none
      let t ← token n .fresh
      if !t.isKeyword "do" then unexpected t (some "do")
      return .each line name ws (← list n false false [])

def command : (fuel : Nat) → Look → Reader Statement
  | 0, _ => unexpected .ended none
  | n + 1, look => do
    let line := (← get).line
    let closed (s : Statement) (closer : Option String) : Reader Statement := do
      match closer with
      | some k =>
        let t ← token n {}
        if !(t.isKeyword k || t.isSign k) then unexpected t (some k)
      | none => pure ()
      return redirecting line s (← redirects n)
    match ← token n look with
    | .keyword "if" =>
      let (as, last) ← arms n
      closed (.branch as last) (some "fi")
    | .keyword "while" => closed (← repeated n true) (some "done")
    | .keyword "until" => closed (← repeated n false) (some "done")
    | .keyword "for" => closed (← each n line) (some "done")
    | .keyword "case" =>
      match ← token n {} with
      | .word w _ =>
        let t ← token n .fresh
        if !t.isKeyword "in" then unexpected t (some "in")
        closed (.choice line w (← choices n)) none
      | t => unexpected t (some "word")
    | .sign "(" => closed (.apart line (← list n false false []) []) (some ")")
    | .keyword "\x7b" => closed (.block (← list n false false [])) (some "\x7d")
    | .word w quoted =>
      giveBack (.word w quoted)
      simple n (← get).line {}
    | .arrow a =>
      giveBack (.arrow a)
      simple n (← get).line {}
    | t => unexpected t none

def repeated : (fuel : Nat) → (wanted : Bool) → Reader Statement
  | 0, _ => unexpected .ended (some "do")
  | n + 1, wanted => do
    let condition ← list n false false []
    let t ← token n {}
    if !t.isKeyword "do" then unexpected t (some "do")
    return .loop wanted condition (← list n false false [])

def redirects : (fuel : Nat) → Reader (List Redirect)
  | 0 => return []
  | n + 1 => do
    match ← token n { keywords := true, aliases := true } with
    | .arrow a =>
      let r ← redirect n a
      return r :: (← redirects n)
    | t =>
      giveBack t
      return []

def stages : (fuel : Nat) → Reader (List Statement)
  | 0 => return []
  | n + 1 => do
    let t ← token n {}
    if t.isSign "|" then
      let s ← command n .fresh
      return s :: (← stages n)
    else
      giveBack t
      return []

def pipeline : (fuel : Nat) → Look → Reader Statement
  | 0, _ => unexpected .ended none
  | n + 1, look => do
    let t ← token n look
    let turned := t.isKeyword "!"
    if !turned then giveBack t
    let first ← command n { keywords := turned, aliases := turned }
    let s := match ← stages n with
      | [] => first
      | more => .pipe (first :: more)
    return if turned then .negated s else s

def joinedTo : (fuel : Nat) → Statement → Reader Statement
  | 0, s => return s
  | n + 1, s => do
    let t ← token n {}
    if t.isSign "&&" then joinedTo n (.both s (← pipeline n .fresh))
    else if t.isSign "||" then joinedTo n (.either s (← pipeline n .fresh))
    else
      giveBack t
      return s

/-- Statements up to something that cannot begin one; at the `top` up to the end of the
    line. Where they are `optional` there may be none. -/
def list : (fuel : Nat) → (top optional : Bool) → (acc : List Statement) → Reader (List Statement)
  | 0, _, _, acc => return acc.reverse
  | n + 1, top, optional, acc => do
    let ended (acc : List Statement) : Reader (List Statement) := do
      documents n
      giveBack .ended
      return acc.reverse
    match ← token n { newlines := !top, keywords := true, aliases := true } with
    | .newline =>
      documents n
      return acc.reverse
    | .ended => ended acc
    | t =>
      giveBack t
      if optional && t.endsList then return acc.reverse
      let s ← joinedTo n (← pipeline n {})
      let t ← token n {}
      let acc := (if t.isSign "&" then .aside s else s) :: acc
      match t with
      | .ended => ended acc
      | .newline =>
        giveBack .newline
        list n top (!top) acc
      | t =>
        if t.isSign ";" || t.isSign "&" then list n top (!top) acc
        else if top then unexpected t none
        else
          giveBack t
          return acc.reverse

end

/-- The word of a text that is read as if it stood in double quotes, in which quotes stand for
    themselves. -/
def quotedText (t : Text) : Except Defect Word :=
  let never : Awaited := { number := 0, mark := ['\n'], stripped := false, literal := false }
  match (double (8 * t.length + 64) { document := some never } false []).run { rest := letters t } with
  | .ok (w, _) => .ok w
  | .error (d, _) => .error d

/-- The statements on the next line of a script, and what follows it; nothing at the end. -/
def next (s : Source) : Except (Defect × Nat) (Option (List Statement) × Source) :=
  match (list (8 * s.rest.length + 64) true false []).run { s with returned := none } with
  | .error e => .error e
  | .ok (ss, s) =>
    match ss, s.returned with
    | [], some .ended => .ok (none, s)
    | ss, _ => .ok (some ss, s)

end Gauntlet.Shell.Reading
