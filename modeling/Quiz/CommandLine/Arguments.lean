/-
Quiz.CommandLine.Arguments — the words behind the name of the program.

There is one plain argument, the quiz, and a handful of flags. A long flag
may be cut short as long as its beginning is that of no other, and may
bring its value behind an equals sign. Behind a lone `--` everything is
plain, and behind an equals sign it leaves the flag without a word. All
words are looked at first, then read from left to right.
-/
import Quiz.Text.CharKind
import Quiz.Text.Quoted

namespace Quiz.CommandLine

/-- The flags. -/
inductive Flag where
  | help | check | screen | placeholder | verbose
  deriving DecidableEq, Repr

namespace Flag

/-- All flags, in the order messages list them. -/
def all : List Flag := [.help, .check, .screen, .placeholder, .verbose]

/-- The long form of a flag. -/
def long : Flag → String
  | .help => "--help"
  | .check => "--check"
  | .screen => "--screen"
  | .placeholder => "--placeholder"
  | .verbose => "--verbose"

/-- All forms of a flag, as messages name it. -/
def forms : Flag → String
  | .help => "-h/--help"
  | f => f.long

def takesValue : Flag → Bool
  | .screen | .placeholder => true
  | _ => false

end Flag

/-- What is wrong with the arguments. -/
inductive UsageFault where
  | ambiguous (word : String) (candidates : List Flag)
  | valueMissing (flag : Flag)
  | valueIgnored (flag : Flag) (value : String)
  | quizMissing
  | unknown (words : List String)
  deriving DecidableEq, Repr

/-- The wording of a usage fault. -/
def UsageFault.message : UsageFault → String
  | .ambiguous word candidates =>
    "ambiguous option: " ++ word ++ " could match " ++ ", ".intercalate (candidates.map Flag.long)
  | .valueMissing flag => "argument " ++ flag.forms ++ ": expected one argument"
  | .valueIgnored flag value =>
    "argument " ++ flag.forms ++ ": ignored explicit argument " ++ Text.quoted value
  | .quizMissing => "the following arguments are required: quiz"
  | .unknown words => "unrecognized arguments: " ++ " ".intercalate words

/-! ## What a word is -/

/-- The sort of a word. -/
inductive WordKind where
  | plain
  /-- The lone `--`. -/
  | separator
  /-- A flag, and the value behind its equals sign. -/
  | flag (f : Flag) (value : Option String)
  /-- `-h` and its value: what stands behind it, or behind its equals
  sign. -/
  | short (value : Option (List Char))
  /-- It looks like a flag but is none. -/
  | stray
  deriving DecidableEq, Repr

/-- A negative number, which is no flag. -/
def isNegativeNumber (s : String) : Bool :=
  match s.toList with
  | '-' :: number =>
    let number := if number.getLast? = some '\n' then number.dropLast else number
    match number.dropWhile Text.isEarlyDigit with
    | [] => !number.isEmpty
    | '.' :: places => !places.isEmpty && places.all Text.isEarlyDigit
    | _ => false
  | _ => false

/-- A word that begins with a dash but names no flag. -/
def undeclared (word : String) : WordKind :=
  if isNegativeNumber word || word.toList.contains ' ' then .plain else .stray

/-- The part of a word before the first equals sign, and the part behind
it. -/
def splitValue (word : String) : String × Option String :=
  let name := word.toList.takeWhile (· ≠ '=')
  match word.toList.drop name.length with
  | [] => (word, none)
  | _ :: value => (String.ofList name, some (String.ofList value))

/-- The flags that a word may be the beginning of. -/
def candidates (name : String) : List Flag :=
  Flag.all.filter fun f => name.toList.isPrefixOf f.long.toList

/-- The sort of a word that begins with two dashes. -/
def longKind (word : String) : Except UsageFault WordKind :=
  let (name, value) := splitValue word
  match candidates name with
  | [] => .ok (undeclared word)
  | [f] => .ok (.flag f value)
  | several => .error (.ambiguous word several)

/-- The sort of a word in front of the separator. -/
def kindOf (word : String) : Except UsageFault WordKind :=
  match word.toList with
  | '-' :: '-' :: _ => longKind word
  | ['-'] => .ok .plain
  | ['-', 'h'] => .ok (.short none)
  | '-' :: 'h' :: '=' :: value | '-' :: 'h' :: value => .ok (.short (some value))
  | '-' :: _ => .ok (undeclared word)
  | _ => .ok .plain

/-- The sorts of all words. -/
def kindsOf : List String → Except UsageFault (List (String × WordKind))
  | [] => .ok []
  | word :: rest =>
    if word = "--" then .ok ((word, .separator) :: rest.map fun w => (w, .plain))
    else
      match kindOf word with
      | .error fault => .error fault
      | .ok kind => (kindsOf rest).map fun kinds => (word, kind) :: kinds

/-! ## Reading the words -/

/-- The value that a flag was given. -/
inductive Value where
  | word (s : String)
  /-- The separator stood for the value, which leaves no word. -/
  | none
  deriving DecidableEq, Repr

/-- The value that stands behind an equals sign. -/
def Value.ofText (text : String) : Value :=
  if text = "--" then .none else .word text

/-- The arguments. -/
structure Arguments where
  quiz : String
  check : Bool
  screen : Option Value
  placeholders : List Value
  verbose : Bool
  deriving DecidableEq, Repr

/-- Why there are no arguments to go by. -/
inductive Stop where
  | help
  | fault (f : UsageFault)
  deriving DecidableEq, Repr

/-- What was read so far. `extra` are the words there is no use for, last
one first; `quizJustRead` tells that the quiz was the word before. -/
structure Reading where
  quiz : Option String
  check : Bool
  screen : Option Value
  placeholders : List Value
  verbose : Bool
  extra : List String
  quizJustRead : Bool

namespace Reading

def start : Reading :=
  ⟨none, false, none, [], false, [], false⟩

/-- A plain word: the quiz, if there is none yet. -/
def plain (r : Reading) (word : String) : Reading :=
  match r.quiz with
  | none => { r with quiz := some word, quizJustRead := true }
  | some _ => { r with extra := word :: r.extra, quizJustRead := false }

/-- The separator goes with the quiz on either side of it. -/
def separator (r : Reading) : Reading :=
  if r.quizJustRead || r.quiz.isNone then { r with quizJustRead := false }
  else { r with extra := "--" :: r.extra }

/-- A word that looks like a flag but is none. -/
def stray (r : Reading) (word : String) : Reading :=
  { r with extra := word :: r.extra, quizJustRead := false }

/-- A flag without a value. -/
def bare (r : Reading) (f : Flag) : Reading :=
  let r := { r with quizJustRead := false }
  match f with
  | .check => { r with check := true }
  | .verbose => { r with verbose := true }
  | _ => r

/-- A flag with its value; placeholders add up. -/
def valued (r : Reading) (f : Flag) (value : Value) : Reading :=
  let r := { r with quizJustRead := false }
  match f with
  | .screen => { r with screen := some value }
  | .placeholder => { r with placeholders := r.placeholders ++ [value] }
  | _ => r

/-- The arguments, once all words are read. -/
def finish (r : Reading) : Except Stop Arguments :=
  match r.quiz with
  | none => .error (.fault .quizMissing)
  | some quiz =>
    if r.extra.isEmpty then .ok ⟨quiz, r.check, r.screen, r.placeholders, r.verbose⟩
    else .error (.fault (.unknown r.extra.reverse))

end Reading

/-- What `-h` with a value leads to: each `h` in front of the value is one
more `-h`, and `-h` takes no other value. -/
def shortStop : List Char → Stop
  | ['h'] => .help
  | 'h' :: value => shortStop value
  | value => .fault (.valueIgnored .help (String.ofList value))

/-- Reads the words from left to right. -/
def readWords (r : Reading) : List (String × WordKind) → Except Stop Reading
  | [] => .ok r
  | (word, .plain) :: rest => readWords (r.plain word) rest
  | (_, .separator) :: rest => readWords r.separator rest
  | (word, .stray) :: rest => readWords (r.stray word) rest
  | (_, .short none) :: _ => .error .help
  | (_, .short (some value)) :: _ => .error (shortStop value)
  | (_, .flag f (some value)) :: rest =>
    if f.takesValue then readWords (r.valued f (.ofText value)) rest
    else .error (.fault (.valueIgnored f value))
  | [(_, .flag f none)] =>
    if f.takesValue then .error (.fault (.valueMissing f))
    else if f = .help then .error .help
    else .ok (r.bare f)
  | (_, .flag f none) :: (word, kind) :: rest =>
    if f.takesValue then
      match kind with
      | .plain => readWords (r.valued f (.word word)) rest
      | _ => .error (.fault (.valueMissing f))
    else if f = .help then .error .help
    else readWords (r.bare f) ((word, kind) :: rest)

/-- The arguments that words spell. -/
def readArguments (words : List String) : Except Stop Arguments :=
  match kindsOf words with
  | .error fault => .error (.fault fault)
  | .ok kinds =>
    match readWords .start kinds with
    | .error stop => .error stop
    | .ok r => r.finish

end Quiz.CommandLine
