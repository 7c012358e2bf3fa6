import Provenance.Shell.Script

/-!
# Reading scripts

A script is read command by command, so that what comes before a mistake is carried out. Words
are read together with the scripts inside them, and the texts that redirections announce are
read at the end of the line that announces them. Where a command begins, a word that is an alias is
replaced by its text, and so is the next word if that text ends in a blank.

## Implementation notes

Reading is recursive descent with one token of lookahead. Its depth is bounded by fuel, of
which each character costs at most a few units; `Source.fuel` is always enough.
-/

namespace Provenance.Shell

/-- A script that cannot be read, with the line on which this was found and what follows there. -/
structure SyntaxError where
  line : Nat
  text : String
  left : Octets
  deriving Repr

/-- A text that a redirection has announced: the line that ends it, whether tabs are left out at
the beginning of its lines, and whether it is taken as it is. -/
structure Announcement where
  number : Nat
  delimiter : Octets
  dropTabs : Bool
  verbatim : Bool

inductive Token
  | endOfFile
  | newline
  | semicolon
  | ampersand
  | both
  | either
  | bar
  | opening
  | closing
  | caseEnd
  | reserved (name : String)
  | word (w : Word)
  /-- A redirection of a stream, by its operator. -/
  | redirection (stream : Option Nat) (operator : String)

namespace Token

/-- A token as it is named in messages. -/
def name : Token → String
  | endOfFile => "end of file"
  | newline => "newline"
  | semicolon => "\";\""
  | ampersand => "\"&\""
  | both => "\"&&\""
  | either => "\"||\""
  | bar => "\"|\""
  | opening => "\"(\""
  | closing => "\")\""
  | caseEnd => "\";;\""
  | reserved name => "\"" ++ name ++ "\""
  | word _ => "word"
  | redirection _ _ => "redirection"

/-- The words that are reserved in the place of a command. -/
def reservedWords : List String :=
  ["!", "case", "do", "done", "elif", "else", "esac", "fi", "for", "if", "in", "then", "until",
    "while", "\x7b", "\x7d"]

/-- The token ends a list of commands inside another. -/
def endsList : Token → Bool
  | endOfFile | closing | caseEnd => true
  | reserved name => ["do", "done", "elif", "else", "esac", "fi", "then", "\x7d"].contains name
  | _ => false

end Token

/-- What follows the text of an alias that stands in the place of a word. -/
structure Suspended where
  /-- The alias, and others that had just been read to their ends when it was met. -/
  names : List Octets
  /-- The text of the alias ends in a blank. -/
  endsInBlank : Bool
  rest : Octets

/-- What has not been read yet, and what reading has to remember. -/
structure Source where
  rest : Octets
  /-- What follows `rest`, which is then the text of an alias, the innermost one first. -/
  behind : List Suspended
  /-- Aliases whose texts have just been read to their ends. -/
  ended : List Octets
  /-- Aliases around a script that is read from within another. -/
  around : List Octets
  /-- The text of an alias that ended in a blank has just been read. -/
  afterBlank : Bool
  /-- Words that stand for texts. -/
  aliases : List (Octets × Octets)
  line : Nat
  /-- A token that is to be read again. -/
  pushed : Option Token
  announced : List Announcement
  documents : List (Nat × Word)
  /-- The number of the next text to be announced. -/
  next : Nat
  /-- The script is that of a file, whose lines may be shown as they are read. -/
  isFile : Bool

namespace Source

/-- What is left of the script itself, where no word stands for a text. -/
def left (s : Source) : Octets := s.behind.getLast?.elim s.rest Suspended.rest

/-- The lines that are begun up to where so much of the script is left. A line of which a word still
stands for a text has been begun before. -/
def linesUpTo (s : Source) (left : Octets) : Octets :=
  let text := if s.behind.isEmpty then s.left else (s.left.dropWhile (· ≠ '\n')).drop 1
  let (passed, rest) := List.splitAt (text.length - left.length) text
  if passed.getLast?.all (· = '\n') then passed
  else
    let (line, rest) := rest.span (· ≠ '\n')
    passed ++ line ++ rest.take 1

end Source

abbrev Reading := StateT Source (Except SyntaxError)

namespace Reading

/-! ## Characters -/

def fail {α : Type} (text : String) : Reading α := do
  throw (SyntaxError.mk (← get).line text (← get).left)

/-- Read another text than the script, of which so much is left. -/
def aside {α : Type} (left : Octets) (body : Reading α) : Reading α :=
  tryCatch body fun e => throw { e with left := left }

/-- Go on behind the text of an alias that has been read to its end. -/
def leaveAliases (s : Source) : Source :=
  let rec go : List Suspended → Source → Source
    | p :: ps, s =>
      if s.rest = [] then
        go ps { s with
          rest := p.rest
          behind := ps
          ended := p.names ++ s.ended
          afterBlank := s.afterBlank || p.endsInBlank }
      else s
    | [], s => s
  go s.behind s

/-- The next character as it is. -/
def peekRaw : Reading (Option Char) := do
  if (← get).rest = [] then modify leaveAliases
  return (← get).rest.head?

def skip : Reading Unit :=
  modify fun s =>
    match s.rest with
    | c :: rest =>
      { s with rest := rest, ended := [], line := if c = '\n' then s.line + 1 else s.line }
    | [] => s

/-- The text of an alias, unless it is that of one that is being read. -/
def aliasText? (s : Source) (name : Octets) : Option Octets :=
  if (s.behind.flatMap Suspended.names ++ s.ended ++ s.around).contains name then none
  else s.aliases.lookup name

/-- Read the text of an alias next. -/
def enterAlias (name text : Octets) : Reading Unit :=
  unless text = [] do
    modify fun s =>
      let last := text.getLast?
      let p : Suspended := ⟨name :: s.ended, last = some ' ' || last = some '\t', s.rest⟩
      { s with rest := text, behind := p :: s.behind, ended := [] }

/-- Leave out ends of lines that a backslash cancels. -/
def joinLines : Octets → Nat → Octets × Nat
  | '\\' :: '\n' :: rest, line => joinLines rest (line + 1)
  | rest, line => (rest, line)

/-- The next character, where cancelled ends of lines do not count. -/
def peek : Reading (Option Char) := do
  modify fun s =>
    let (rest, line) := joinLines s.rest s.line
    { s with rest := rest, line := line }
  peekRaw

/-- Leave out the next character, which does not count as the end of a line. -/
def skipUncounted : Reading Unit := do
  let line := (← get).line
  skip
  modify fun s => { s with line := line }

/-- Take the next character if it is the given one. -/
def accept (c : Char) : Reading Bool := do
  if (← peek) = some c then
    skip
    return true
  else return false

/-- The character can begin a name. -/
def isNameStart (c : Char) : Bool := c.isAlpha || c = '_'

/-- The character can stand in a name. -/
def isNameChar (c : Char) : Bool := c.isAlphanum || c = '_'

def isName (s : Octets) : Bool :=
  match s with
  | c :: cs => isNameStart c && cs.all isNameChar
  | [] => false

/-- The character alone names a parameter. -/
def isSpecial (c : Char) : Bool := c.isDigit || "!#$*-?@".toList.contains c

/-- Take characters as long as they satisfy a property, at most `fuel` of them. -/
def takeWhile (p : Char → Bool) : Nat → Reading Octets
  | 0 => return []
  | fuel + 1 => do
    match ← peek with
    | some c =>
      if p c then
        skip
        return c :: (← takeWhile p fuel)
      else return []
    | none => return []

/-! ## Pieces

A word under construction is kept in reverse, and so is the text of its pieces. -/

/-- Put an unquoted character at the end of a word. -/
def addPlain (c : Char) : Word → Word
  | .plain text :: w => .plain (c :: text) :: w
  | w => .plain [c] :: w

/-- Put quoted characters at the end of a word. -/
def addQuoted (cs : Octets) : Word → Word
  | .quoted text :: w => .quoted (cs.reverse ++ text) :: w
  | w => .quoted cs.reverse :: w

/-- The finished word. Finishing it once more gives the word under construction again. -/
def finishWord (w : Word) : Word :=
  (w.map fun
    | .plain text => .plain text.reverse
    | .quoted text => .quoted text.reverse
    | p => p).reverse

/-- Where characters of a word are read. -/
structure Surroundings where
  /-- In double quotes. -/
  double : Bool := false
  /-- In the braces of a parameter. -/
  braces : Bool := false
  /-- In a text where double quotes are plain, such as one that a redirection has announced. -/
  document : Bool := false
  /-- What has announced the text. -/
  announcement : Option Announcement := none
  /-- In a word in which nothing is expanded. -/
  literal : Bool := false
  /-- Inside a pair of double quotes within braces within double quotes. -/
  inner : Bool := false
  /-- The number of open parentheses in an arithmetic expression. -/
  parentheses : Option Nat := none

namespace Surroundings

def outside : Surroundings := {}

/-- In a text where double quotes are plain. -/
def inDocument (announcement : Option Announcement) : Surroundings where
  double := true
  document := true
  announcement := announcement

/-- Put a character at the end of a word that is read here. -/
def add (s : Surroundings) (c : Char) (w : Word) : Word :=
  if s.double then addQuoted [c] w else addPlain c w

/-- The surroundings in the braces of a parameter. A pattern begins without quotes. -/
def inBraces (s : Surroundings) (isPattern : Bool) : Surroundings :=
  { s with double := s.double && !isPattern, braces := true, inner := false, parentheses := none }

/-- The surroundings in an arithmetic expression. -/
def inArithmetic (s : Surroundings) : Surroundings where
  double := true
  announcement := s.announcement
  parentheses := some 0

def inQuotes (s : Surroundings) : Surroundings :=
  { s with double := true, braces := false, document := false }

end Surroundings

/-- Refuse the end of the text here, or finish a word. -/
def endWord (s : Surroundings) (w : Word) : Reading Word := do
  if s.parentheses.isSome then fail "Missing '))'"
  else if s.double ∧ !s.document ∧ s.announcement.isNone then fail "Unterminated quoted string"
  else if s.braces ∨ (!s.document ∧ s.announcement.isSome) then fail "Missing '\x7d'"
  else return finishWord w

/-- Take the line that ends an announced text, if it comes next. Before any line tabs may be left
out. -/
def acceptEnd (a : Announcement) : Reading Bool := do
  let s ← get
  let rest := if a.dropTabs then s.rest.dropWhile (· = '\t') else s.rest
  let after := rest.drop a.delimiter.length
  if a.delimiter.isPrefixOf rest ∧ after.head?.all (· = '\n') then
    set { s with rest := after.drop 1, line := s.line + 1 }
    return true
  else
    set { s with rest := rest }
    return false

/-- Read up to a single quote. -/
def readSingle (s : Surroundings) : Nat → Octets → Reading Octets
  | 0, _ => fail "Unterminated quoted string"
  | fuel + 1, done => do
    let unterminated : Reading Octets :=
      fail (if s.announcement.isSome then "Missing '\x7d'" else "Unterminated quoted string")
    match ← peekRaw with
    | none => unterminated
    | some c =>
      skip
      if c = '\x27' then return done.reverse
      else if c = '\n' then
        match s.announcement with
        | some a => if ← acceptEnd a then unterminated else readSingle s fuel (c :: done)
        | none => readSingle s fuel (c :: done)
      else readSingle s fuel (c :: done)

/-- Read a quoted script up to its closing backquote. -/
def readBackquoted (inDouble : Bool) : Nat → Octets → Reading Octets
  | 0, _ => fail "EOF in backquote substitution"
  | fuel + 1, done => do
    match ← peek with
    | none => fail "EOF in backquote substitution"
    | some '\x60' =>
      skip
      return done.reverse
    | some '\\' =>
      skip
      match ← peekRaw with
      | none => readBackquoted inDouble fuel ('\\' :: done)
      | some c =>
        skip
        if c = '\\' ∨ c = '\x60' ∨ c = '$' ∨ (inDouble ∧ c = '"') then
          readBackquoted inDouble fuel (c :: done)
        else readBackquoted inDouble fuel (c :: '\\' :: done)
    | some c =>
      skip
      readBackquoted inDouble fuel (c :: done)

/-- Read what follows a backslash. -/
def readEscaped (s : Surroundings) (w : Word) : Reading Word := do
  match ← peekRaw with
  | none => return addQuoted ['\\'] w
  | some c =>
    skip
    let isEscape := !s.double || c = '\\' || c = '\x60' || c = '$' ||
      (c = '"' && !(s.document && !s.braces)) || (c = '\x7d' && s.braces)
    return addQuoted (if isEscape then [c] else ['\\', c]) w

/-- Read the name of a parameter in braces, and whether its length is asked for; `none` where
there is none. -/
def readParameterName (fuel : Nat) : Reading (Option (Octets × Bool)) := do
  match ← peek with
  | none => return none
  | some c =>
    if isNameStart c then return some (← takeWhile isNameChar fuel, false)
    else if c.isDigit then return some (← takeWhile Char.isDigit fuel, false)
    else if c = '\x7d' then return none
    else
      skipUncounted
      match ← peek with
      | none => return if isSpecial c then some ([c], false) else none
      | some d =>
        if c = '#' then
          if isNameStart d then return some (← takeWhile isNameChar fuel, true)
          else if d.isDigit then return some (← takeWhile Char.isDigit fuel, true)
          else
            let before ← get
            skip
            let after ← peek
            if d ≠ '\x7d' ∧ after = some '\x7d' then
              return if isSpecial d then some ([d], true) else none
            else
              set before
              return some (['#'], false)
        else return if isSpecial c then some ([c], false) else none

/-- The operators between a parameter and a word. -/
inductive Operator
  | value
  | length
  | word (make : Word → Use) (isPattern : Bool)
  | malformed

/-- Read the operator after the name of a parameter. The closing brace is taken only behind a
mere value. -/
def readOperator (isLength : Bool) : Reading Operator := do
  let c ← peek
  if isLength then return if c = some '\x7d' then .length else .malformed
  else
    let empty ← accept ':'
    match ← peek with
    | some '\x7d' =>
      skip
      return .value
    | some '-' =>
      skip
      return .word (.fallback empty) false
    | some '=' =>
      skip
      return .word (.assign empty) false
    | some '?' =>
      skip
      return .word (.require empty) false
    | some '+' =>
      skip
      return .word (.instead empty) false
    | some '#' =>
      if empty then return .malformed
      else
        skip
        return .word (.trim false (← accept '#')) true
    | some '%' =>
      if empty then return .malformed
      else
        skip
        return .word (.trim true (← accept '%')) true
    | some _ =>
      skipUncounted
      return .malformed
    | none => return .malformed

/-! ## Tokens -/

def pushBack (t : Token) : Reading Unit := modify fun s => { s with pushed := some t }

/-- Refuse a token, possibly because another was expected. -/
def unexpected {α : Type} (t : Token) (expected : Option Token) : Reading α :=
  fail (t.name ++ " unexpected" ++
    (expected.elim "" fun e => " (expecting " ++ e.name ++ ")"))

def announce (delimiter : Octets) (dropTabs verbatim : Bool) : Reading Nat := do
  let number := (← get).next
  let a : Announcement := ⟨number, delimiter, dropTabs, verbatim⟩
  modify fun s => { s with announced := s.announced ++ [a], next := number + 1 }
  return number

/-- Read the lines of an announced text as they are, of which some, in reverse, have been read. -/
def readVerbatim (a : Announcement) : Nat → Octets → Reading Octets
  | 0, done => return done.reverse
  | fuel + 1, done => do
    if ← acceptEnd a then return done.reverse
    else
      let s ← get
      match s.rest.span (· ≠ '\n') with
      | (line, []) =>
        set { s with rest := [] }
        return done.reverse ++ line
      | (line, _ :: rest) =>
        set { s with rest := rest, line := s.line + 1 }
        readVerbatim a fuel ('\n' :: line.reverse ++ done)

/-- Read the operator of a redirection, of whose first character `first` is known. -/
def redirectionOperator (first : Char) : Reading String := do
  if first = '>' then
    if ← accept '>' then return ">>"
    else if ← accept '|' then return ">|"
    else if ← accept '&' then return ">&"
    else return ">"
  else if ← accept '<' then
    if ← accept '-' then return "<<-" else return "<<"
  else if ← accept '&' then return "<&"
  else if ← accept '>' then return "<>"
  else return "<"

def skipComment : Nat → Reading Unit
  | 0 => return
  | fuel + 1 => do
    match ← peekRaw with
    | none | some '\n' => return
    | some _ =>
      skip
      skipComment fuel

/-- Leave out blanks and comments. -/
def skipBlanks : Nat → Reading Unit
  | 0 => return
  | fuel + 1 => do
    match ← peek with
    | some ' ' | some '\t' =>
      skip
      skipBlanks fuel
    | some '#' =>
      skipComment fuel
      skipBlanks fuel
    | _ => return

/-- The name and value of a word that assigns to a variable. -/
def assignment? : Word → Option (Octets × Word)
  | .plain text :: rest =>
    match text.span (· ≠ '=') with
    | (name, '=' :: value) =>
      if isName name then some (name, if value = [] then rest else .plain value :: rest) else none
    | _ => none
  | _ => none

/-- The text of a word with quotes taken away, where nothing is expanded. -/
def literalText (w : Word) : Octets :=
  w.flatMap fun
    | .plain text | .quoted text => text
    | _ => []

/-- The number of the redirected stream. -/
def streamOf (stream : Option Nat) (operator : String) : Nat :=
  stream.getD (if operator.startsWith "<" then 0 else 1)

/-- The mode of an operator that opens a file. -/
def openingOf (operator : String) : Opening :=
  match operator with
  | "<" => .read
  | "<>" => .update
  | ">>" => .append
  | ">|" => .overwrite
  | _ => .write

/-- Names of commands that no function may have. -/
def specialCommands : List String :=
  [".", ":", "break", "continue", "eval", "exec", "exit", "export", "readonly", "return", "set",
    "shift", "times", "trap", "unset"]

/-- Where a token stands: whether newlines before it are left out, whether words are reserved there,
whether an alias is replaced by its text, and whether nothing in a word is expanded. -/
structure Place where
  skipsNewlines : Bool := false
  reserves : Bool := false
  expands : Bool := false
  literal : Bool := false

namespace Place

def inside : Place := {}

/-- Where a command begins, or a part of it on the same line. -/
def first : Place where
  reserves := true
  expands := true

/-- Where a command begins, possibly on a later line. -/
def later : Place where
  skipsNewlines := true
  reserves := true
  expands := true

/-- Where something ends that is made of commands. -/
def closing : Place where
  reserves := true

/-- Where a case begins or ends. -/
def ofCase : Place where
  skipsNewlines := true
  reserves := true

/-- Where the line is named that ends an announced text. -/
def ofEnd : Place where
  literal := true

end Place

/-! ## Words and commands -/

mutual

/-- Read pieces of a word up to where it ends in its surroundings. What ends double quotes,
braces and arithmetic expressions is taken. -/
def readPieces : Nat → Surroundings → Word → Reading Word
  | 0, _, _ => fail "Unterminated quoted string"
  | fuel + 1, s, w => do
    match ← peek with
    | none => endWord s w
    | some '\n' =>
      match s.announcement with
      | none => readOther fuel s w '\n'
      | some a =>
        skip
        let w := s.add '\n' w
        if ← acceptEnd a then endWord s w else readPieces fuel s w
    | some '$' =>
      if s.literal then readOther fuel s w '$'
      else
        skip
        readPieces fuel s (← readDollar fuel s w)
    | some '\x60' =>
      if s.literal then readOther fuel s w '\x60'
      else
        skip
        let script ← readBackquoted s.double fuel []
        readPieces fuel s (.output s.double (← readInside fuel script) :: w)
    | some '\\' =>
      skip
      readPieces fuel s (← readEscaped s w)
    | some '\x7d' =>
      if s.braces ∧ !s.inner then
        skip
        return finishWord w
      else
        skip
        readPieces fuel s (s.add '\x7d' w)
    | some '\x27' =>
      skip
      if s.double then readPieces fuel s (addQuoted ['\x27'] w)
      else readPieces fuel s (addQuoted (← readSingle s fuel []) w)
    | some '"' =>
      if s.parentheses.isSome ∨ (s.document ∧ !s.braces) then
        skip
        readPieces fuel s (addQuoted ['"'] w)
      else if !s.double then
        skip
        let inside ← readPieces fuel s.inQuotes []
        match inside with
        | [.parameter true ['@'] .value] => readPieces fuel s (inside ++ w)
        | _ => readPieces fuel s (finishWord inside ++ .quoted [] :: w)
      else if s.braces then
        skip
        readPieces fuel { s with inner := !s.inner } (addQuoted [] w)
      else
        skip
        return finishWord w
    | some '(' =>
      match s.parentheses with
      | some n =>
        skip
        readPieces fuel { s with parentheses := some (n + 1) } (s.add '(' w)
      | none => readOther fuel s w '('
    | some ')' =>
      match s.parentheses with
      | some (n + 1) =>
        skip
        readPieces fuel { s with parentheses := some n } (s.add ')' w)
      | some 0 =>
        skip
        if ← accept ')' then return finishWord w else readPieces fuel s (s.add ')' w)
      | none => readOther fuel s w ')'
    | some c => readOther fuel s w c

/-- Read a character without a meaning of its own in a word, which may end it. -/
def readOther : Nat → Surroundings → Word → Char → Reading Word
  | 0, _, _, _ => fail "Unterminated quoted string"
  | fuel + 1, s, w, c => do
    if !s.double ∧ !s.braces ∧ " \t\n;&|<>()".toList.contains c then return finishWord w
    else
      skip
      readPieces fuel s (s.add c w)

/-- Read what follows a dollar sign and put it at the end of a word. -/
def readDollar : Nat → Surroundings → Word → Reading Word
  | 0, _, _ => fail "Unterminated quoted string"
  | fuel + 1, s, w => do
    match ← peek with
    | some '(' =>
      skip
      if ← accept '(' then
        let inside ← readPieces fuel s.inArithmetic []
        return .arithmetic s.double inside :: w
      else
        return .output s.double (← readSubstitution fuel) :: w
    | some '\x7b' =>
      skip
      match ← readParameterName fuel with
      | none =>
        let _ ← readPieces fuel (s.inBraces false) []
        return .parameter s.double [] .malformed :: w
      | some (name, isLength) =>
        match ← readOperator isLength with
        | .value => return .parameter s.double name .value :: w
        | .length =>
          skip
          return .parameter s.double name .length :: w
        | .malformed =>
          let _ ← readPieces fuel (s.inBraces false) []
          return .parameter s.double name .malformed :: w
        | .word make isPattern =>
          let word ← readPieces fuel (s.inBraces isPattern) []
          return .parameter s.double name (make word) :: w
    | some c =>
      if isNameStart c then
        return .parameter s.double (← takeWhile isNameChar fuel) .value :: w
      else if isSpecial c then
        skip
        return .parameter s.double [c] .value :: w
      else return s.add '$' w
    | none => return s.add '$' w

/-- Read a script up to its closing parenthesis. -/
def readSubstitution : Nat → Reading Script
  | 0 => fail "Unterminated quoted string"
  | fuel + 1 => do
    let before ← get
    set { before with pushed := none, announced := [] }
    let script ← readList fuel false true
    match ← readToken fuel .inside with
    | .closing => modify fun s => { s with pushed := none, announced := before.announced }
    | t => unexpected t (some .closing)
    return script

/-- Read the text of a script that stood in backquotes. -/
def readInside : Nat → Octets → Reading Script
  | 0, _ => fail "Unterminated quoted string"
  | fuel + 1, text => do
    let before ← get
    let around := before.behind.flatMap Suspended.names ++ before.ended ++ before.around
    set { before with
      rest := text
      behind := []
      ended := []
      around := around
      line := 1
      pushed := none
      announced := [] }
    aside before.left do
      let script ← readList fuel false true
      match ← readToken fuel .inside with
      | .endOfFile =>
        modify fun s =>
          { before with documents := s.documents, next := s.next }
      | t => unexpected t none
      return script

/-- Read the texts that have been announced. -/
def readDocuments : Nat → Reading Unit
  | 0 => return
  | fuel + 1 => do
    match (← get).announced with
    | [] => return
    | a :: later =>
      modify fun s =>
        { s with
          rest := s.rest ++ s.behind.flatMap Suspended.rest
          behind := []
          announced := later }
      let word ←
        if a.verbatim then do
          pure [Piece.quoted (← readVerbatim a ((← get).rest.length + 1) [])]
        else do
          let _ ← peek
          if ← acceptEnd a then pure [] else readPieces fuel (.inDocument a) []
      modify fun s => { s with documents := (a.number, word) :: s.documents }
      readDocuments fuel

/-- Read a token that stands in some place. -/
def readToken : Nat → Place → Reading Token
  | 0, _ => fail "Unterminated quoted string"
  | fuel + 1, place => do
    let t ← nextToken fuel place
    let expands := place.expands || (← get).afterBlank
    modify fun s => { s with afterBlank := false }
    match t with
    | .newline =>
      if place.skipsNewlines then
        readDocuments fuel
        readToken fuel place
      else return .newline
    | .word w =>
      match Word.plain? w with
      | some text =>
        if place.reserves ∧ Token.reservedWords.contains (String.ofList text) then
          return .reserved (String.ofList text)
        else
          let s ← get
          match if expands then aliasText? s text else none with
          | some meaning =>
            enterAlias text meaning
            readToken fuel { place with expands := true }
          | none => return t
      | none => return t
    | t => return t

/-- Read a token as it is, or the one that was pushed back. -/
def nextToken : Nat → Place → Reading Token
  | 0, _ => fail "Unterminated quoted string"
  | fuel + 1, place => do
    match (← get).pushed with
    | some t =>
      modify fun s => { s with pushed := none }
      return t
    | none =>
      skipBlanks fuel
      match ← peek with
      | none => return .endOfFile
      | some '\n' =>
        skip
        return .newline
      | some '&' =>
        skip
        return if ← accept '&' then .both else .ampersand
      | some '|' =>
        skip
        return if ← accept '|' then .either else .bar
      | some ';' =>
        skip
        return if ← accept ';' then .caseEnd else .semicolon
      | some '(' =>
        skip
        return .opening
      | some ')' =>
        skip
        return .closing
      | some c =>
        if c = '<' ∨ c = '>' then
          skip
          return .redirection none (← redirectionOperator c)
        else
          let w ← readPieces fuel { Surroundings.outside with literal := place.literal } []
          match Word.plain? w, ← peek with
          | some [d], some c =>
            if d.isDigit ∧ (c = '<' ∨ c = '>') then
              skip
              return .redirection (some (d.toNat - '0'.toNat)) (← redirectionOperator c)
            else return .word w
          | _, _ => return .word w

/-- Read the rest of a redirection, behind its operator. -/
def readRedirection : Nat → Option Nat → String → Reading Redirection
  | 0, _, _ => fail "Unterminated quoted string"
  | fuel + 1, stream, operator => do
    let isAnnouncement := operator.startsWith "<<"
    match ← readToken fuel (if isAnnouncement then .ofEnd else .inside) with
    | .word w =>
      let stream := streamOf stream operator
      if isAnnouncement then
        let number ← announce (literalText w) (operator = "<<-") w.hasQuotes
        return .document stream number
      else if operator = ">&" ∨ operator = "<&" then return .copy stream w
      else return .file stream (openingOf operator) w
    | t => unexpected t none

def readRedirections : Nat → Reading (List Redirection)
  | 0 => fail "Unterminated quoted string"
  | fuel + 1 => do
    match ← readToken fuel .first with
    | .redirection stream operator =>
      let r ← readRedirection fuel stream operator
      return r :: (← readRedirections fuel)
    | t =>
      pushBack t
      return []

/-- Read a list of commands. One at the top ends with its line; another goes on to a token that
ends lists, and only if `mayBeEmpty` need it hold a command. -/
def readList : Nat → (top mayBeEmpty : Bool) → Reading Script
  | 0, _, _ => fail "Unterminated quoted string"
  | fuel + 1, top, mayBeEmpty => do
    match ← readToken fuel (if top then .first else .later) with
    | .newline =>
      readDocuments fuel
      return .nothing
    | .endOfFile =>
      readDocuments fuel
      pushBack .endOfFile
      return .nothing
    | t =>
      pushBack t
      if mayBeEmpty ∧ !top ∧ t.endsList then return .nothing
      else
        let line := (← get).line
        let command ← readAndOr fuel
        match ← readToken fuel .inside with
        | .ampersand => readMore fuel top (.background line command)
        | .semicolon => readMore fuel top command
        | .newline =>
          pushBack .newline
          readMore fuel top command
        | .endOfFile =>
          pushBack .endOfFile
          readMore fuel top command
        | t =>
          if top then unexpected t none
          else
            pushBack t
            return command

/-- Go on with a list of commands. -/
def readMore : Nat → (top : Bool) → Script → Reading Script
  | 0, _, _ => fail "Unterminated quoted string"
  | fuel + 1, top, command => do
    match ← readList fuel top true with
    | .nothing => return command
    | more => return .sequence command more

/-- Read commands joined by their success or failure. -/
def readAndOr : Nat → Reading Script
  | 0 => fail "Unterminated quoted string"
  | fuel + 1 => do
    let first ← readPipeline fuel false
    readAndOrFrom fuel first

/-- Go on after the first of joined commands. -/
def readAndOrFrom : Nat → Script → Reading Script
  | 0, _ => fail "Unterminated quoted string"
  | fuel + 1, left => do
    match ← readToken fuel .inside with
    | .both => readAndOrFrom fuel (.both left (← readPipeline fuel true))
    | .either => readAndOrFrom fuel (.either left (← readPipeline fuel true))
    | t =>
      pushBack t
      return left

/-- Read commands joined by pipes. -/
def readPipeline : Nat → (skipNewlines : Bool) → Reading Script
  | 0, _ => fail "Unterminated quoted string"
  | fuel + 1, skipNewlines => do
    match ← readToken fuel (if skipNewlines then .later else .inside) with
    | .reserved "!" =>
      let first ← readCommand fuel false
      return .negated (← readStages fuel [first])
    | t =>
      pushBack t
      let first ← readCommand fuel false
      readStages fuel [first]

/-- Go on after the first commands of a pipe, which are in reverse. -/
def readStages : Nat → List Script → Reading Script
  | 0, _ => fail "Unterminated quoted string"
  | fuel + 1, stages => do
    match ← readToken fuel .inside with
    | .bar => readStages fuel ((← readCommand fuel true) :: stages)
    | t =>
      pushBack t
      match stages with
      | [command] => return command
      | stages => return .pipe stages.reverse

def readCommand : Nat → (skipNewlines : Bool) → Reading Script
  | 0, _ => fail "Unterminated quoted string"
  | fuel + 1, skipNewlines => do
    let line := (← get).line
    match ← readToken fuel (if skipNewlines then .later else .first) with
    | .reserved "if" =>
      let body ← readChoice fuel
      readTail fuel line body
    | .reserved "while" =>
      let body ← readLoop fuel true
      readTail fuel line body
    | .reserved "until" =>
      let body ← readLoop fuel false
      readTail fuel line body
    | .reserved "for" =>
      let body ← readEach fuel line
      readTail fuel line body
    | .reserved "case" =>
      match ← readToken fuel .inside with
      | .word w =>
        match ← readToken fuel .later with
        | .reserved "in" =>
          let cases ← readCases fuel
          readTail fuel line (.select line w cases)
        | t => unexpected t (some (.reserved "in"))
      | t => unexpected t (some (.word []))
    | .opening =>
      let body ← readList fuel false false
      match ← readToken fuel .closing with
      | .closing =>
        let rs ← readRedirections fuel
        return .subshell line body rs
      | t => unexpected t (some .closing)
    | .reserved "\x7b" =>
      let body ← readList fuel false false
      match ← readToken fuel .closing with
      | .reserved "\x7d" => readTail fuel line body
      | t => unexpected t (some (.reserved "\x7d"))
    | .word w =>
      pushBack (.word w)
      readSimple fuel line [] [] []
    | .redirection stream operator =>
      pushBack (.redirection stream operator)
      readSimple fuel line [] [] []
    | t => unexpected t none

/-- Read the redirections behind a command. -/
def readTail : Nat → Nat → Script → Reading Script
  | 0, _, _ => fail "Unterminated quoted string"
  | fuel + 1, line, body => do
    match ← readRedirections fuel with
    | [] => return body
    | rs => return .redirected line body rs

/-- Read the rest of a choice, from its condition on. -/
def readChoice : Nat → Reading Script
  | 0 => fail "Unterminated quoted string"
  | fuel + 1 => do
    let condition ← readList fuel false false
    match ← readToken fuel .closing with
    | .reserved "then" =>
      let consequence ← readList fuel false false
      match ← readToken fuel .closing with
      | .reserved "elif" => return .choice condition consequence (some (← readChoice fuel))
      | .reserved "else" =>
        let alternative ← readList fuel false false
        match ← readToken fuel .closing with
        | .reserved "fi" => return .choice condition consequence (some alternative)
        | t => unexpected t (some (.reserved "fi"))
      | .reserved "fi" => return .choice condition consequence none
      | t => unexpected t (some (.reserved "fi"))
    | t => unexpected t (some (.reserved "then"))

/-- Read the rest of a loop with a condition. -/
def readLoop : Nat → (expected : Bool) → Reading Script
  | 0, _ => fail "Unterminated quoted string"
  | fuel + 1, expected => do
    let condition ← readList fuel false false
    match ← readToken fuel .closing with
    | .reserved "do" => return .loop expected condition (← readBody fuel)
    | t => unexpected t (some (.reserved "do"))

/-- Read the body of a loop behind the word that begins it. -/
def readBody : Nat → Reading Script
  | 0 => fail "Unterminated quoted string"
  | fuel + 1 => do
    let body ← readList fuel false false
    match ← readToken fuel .closing with
    | .reserved "done" => return body
    | t => unexpected t (some (.reserved "done"))

/-- Read the rest of a loop over words. -/
def readEach : Nat → Nat → Reading Script
  | 0, _ => fail "Unterminated quoted string"
  | fuel + 1, line => do
    let name ← match ← readToken fuel .inside with
      | .word w =>
        match Word.plain? w with
        | some name => if isName name then pure name else fail "Bad for loop variable"
        | none => fail "Bad for loop variable"
      | _ => fail "Bad for loop variable"
    let words ← match ← readToken fuel .later with
      | .reserved "in" => readWords fuel
      | .semicolon => pure [[.parameter true ['@'] .value]]
      | t =>
        pushBack t
        pure [[.parameter true ['@'] .value]]
    match ← readToken fuel .later with
    | .reserved "do" => return .each line name words (← readBody fuel)
    | t => unexpected t (some (.reserved "do"))

/-- Read the words of a loop and what ends them. -/
def readWords : Nat → Reading (List Word)
  | 0 => fail "Unterminated quoted string"
  | fuel + 1 => do
    match ← readToken fuel .inside with
    | .word w => return w :: (← readWords fuel)
    | .newline | .semicolon => return []
    | t => unexpected t none

/-- Read cases up to their end. -/
def readCases : Nat → Reading (List (List Word × Script))
  | 0 => fail "Unterminated quoted string"
  | fuel + 1 => do
    match ← readToken fuel .ofCase with
    | .reserved "esac" => return []
    | t =>
      let first ← match t with
        | .opening => readToken fuel .inside
        | t => pure t
      let patterns ← readPatterns fuel first
      let body ← readList fuel false true
      match ← readToken fuel .ofCase with
      | .reserved "esac" => return [(patterns, body)]
      | .caseEnd => return (patterns, body) :: (← readCases fuel)
      | t => unexpected t (some .caseEnd)

/-- Read the patterns of a case, the first of which is known, and the parenthesis behind them. -/
def readPatterns : Nat → Token → Reading (List Word)
  | 0, _ => fail "Unterminated quoted string"
  | fuel + 1, first => do
    let pattern := match first with
      | .word w => w
      | .reserved name => [.plain name.toList]
      | _ => []
    match ← readToken fuel .inside with
    | .bar =>
      let next ← readToken fuel .inside
      return pattern :: (← readPatterns fuel next)
    | .closing => return [pattern]
    | t => unexpected t (some .closing)

/-- Read a simple command, of which some parts, in reverse, have been read. -/
def readSimple : Nat → Nat → List (Octets × Word) → List Word → List Redirection → Reading Script
  | 0, _, _, _, _ => fail "Unterminated quoted string"
  | fuel + 1, line, assignments, words, redirections => do
    match ← readToken fuel { Place.inside with expands := words.isEmpty } with
    | .word w =>
      match words, assignment? w with
      | [], some a => readSimple fuel line (a :: assignments) [] redirections
      | words, _ => readSimple fuel line assignments (w :: words) redirections
    | .redirection stream operator =>
      let r ← readRedirection fuel stream operator
      readSimple fuel line assignments words (r :: redirections)
    | .opening =>
      match words, assignments, redirections with
      | [w], [], [] => readFunction fuel w
      | _, _, _ =>
        pushBack .opening
        return .simple line assignments.reverse words.reverse redirections.reverse
    | t =>
      pushBack t
      return .simple line assignments.reverse words.reverse redirections.reverse

/-- Read the rest of a function, behind its name and an opening parenthesis. -/
def readFunction : Nat → Word → Reading Script
  | 0, _ => fail "Unterminated quoted string"
  | fuel + 1, w => do
    match ← readToken fuel .inside with
    | .closing =>
      let name := (Word.plain? w).getD []
      if !isName name ∨ specialCommands.contains (String.ofList name) then
        fail "Bad function name"
      else
        let line := (← get).line
        return .define line name (← readCommand fuel true)
    | t => unexpected t (some .closing)

end

/-- Read the next line of commands; `none` at the end of the script. -/
def readLine (fuel : Nat) : Reading (Option Script) := do
  modify fun s => { s with pushed := none, announced := [] }
  match ← readToken fuel .first with
  | .endOfFile => return none
  | t =>
    pushBack t
    return some (← readList fuel true false)

end Reading

namespace Source

/-- A source at the beginning of a script, where `next` texts have been announced so far. -/
def ofScript (isFile : Bool) (text : Octets) (next : Nat) : Source :=
  ⟨text, [], [], [], false, [], 1, none, [], [], next, isFile⟩

/-- The source where words stand for other texts. -/
def withAliases (s : Source) (aliases : List (Octets × Octets)) : Source :=
  { s with aliases := aliases }

/-- Enough fuel to read all that is left, where every word could be replaced by every alias. -/
def fuel (s : Source) : Nat :=
  let length := s.rest.length + (s.behind.map fun p => p.rest.length).foldl (· + ·) 0
  let growth := (s.aliases.map fun (_, text) => text.length + 1).foldl (· * ·) 1
  16 * (length + 8) * growth

/-- Read the next line of commands and the texts that belong to it. -/
def readLine (s : Source) : Except SyntaxError (Option Script × Source) :=
  (Reading.readLine s.fuel).run s

/-- Read all of a source as a word in which double quotes are plain. -/
def readWord (s : Source) : Except SyntaxError (Word × Source) :=
  (Reading.readPieces s.fuel (.inDocument none) []).run s

def isAtEnd (s : Source) : Bool := s.rest.isEmpty && s.behind.all (·.rest.isEmpty)

end Source

end Provenance.Shell
