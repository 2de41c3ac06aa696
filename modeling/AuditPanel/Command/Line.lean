import AuditPanel.Command.Basic

/-!
Command lines: words and options in front of a command's name and behind it. Words are read one
after the other, and the first one that does not fit decides.
-/

set_option autoImplicit false

namespace AuditPanel.CommandLine

/-- Why a command line is no command: it asks for help or the version, or it is wrong. -/
inductive Ending where
  | help
  | misuse
  deriving Repr, DecidableEq, Inhabited

namespace Ending

def exitCode : Ending → Nat
  | .help => 0
  | .misuse => 2

end Ending

/-- An option: its name behind two dashes, its letter behind one, whether a value follows, whether
it may be repeated and which values it takes. -/
structure OptionRule where
  name : String
  letter : Option Char
  takesValue : Bool
  isRepeatable : Bool
  accepts : String → Bool

/-- A switch, given once at most. -/
def switch (name : String) : OptionRule :=
  ⟨name, none, false, false, fun _ => true⟩

/-- An option with any text as its value, given once at most. -/
def textOption (name : String) : OptionRule :=
  ⟨name, none, true, false, fun _ => true⟩

def isPath (s : String) : Bool :=
  !s.isEmpty

/-- The number of a port that a text writes, with a sign or without; behind a minus sign only zero
is one. -/
def port? (s : String) : Option Nat :=
  let (isNegative, digits) := Decimal.signed s.toList
  if digits.isEmpty || !digits.all Char.isDigit then none
  else
    let n := Decimal.digitsValue digits
    if n < 1 <<< 16 && !(isNegative && 0 < n) then some n else none

def configOption : OptionRule :=
  { textOption "config" with letter := some 'c', accepts := isPath }

/-- The options about the log, which go with every command. -/
def logOptions : List OptionRule :=
  [{ switch "verbose" with letter := some 'v', isRepeatable := true }, switch "json-logs",
    switch "no-color"]

def backendOptions : List OptionRule :=
  ["provider", "model", "api-key", "base-url"].map textOption

/-- Where a word of a command line stands: in front of a command's name, behind one, or behind the
word for help with the names so far. -/
inductive Place where
  | front
  | audit
  | address
  | serve
  | validate
  | helpOn (names : List String)
  deriving Repr, DecidableEq, Inhabited

namespace Place

def ofName? : String → Option Place
  | "audit" => some .audit
  | "address" => some .address
  | "serve" => some .serve
  | "validate" => some .validate
  | _ => none

def options : Place → List OptionRule
  | .front => logOptions ++ [configOption]
  | .audit =>
    [textOption "mode", textOption "chain", { textOption "agents" with isRepeatable := true },
      switch "json"] ++ backendOptions ++ logOptions ++ [configOption]
  | .address =>
    [textOption "chain", textOption "mode", switch "json"] ++ backendOptions ++ logOptions ++
      [configOption]
  | .serve =>
    [{ textOption "port" with accepts := fun s => (port? s).isSome }, textOption "host",
      textOption "db"] ++ backendOptions ++ logOptions ++ [configOption]
  | .validate => logOptions
  | .helpOn _ => []

/-- The word without dashes that a place takes: its name and which texts it can be. -/
def word? : Place → Option (String × (String → Bool))
  | .audit => some ("file", isPath)
  | .address => some ("address", fun _ => true)
  | .validate => some ("config", isPath)
  | _ => none

end Place

/-- What was given: names with values, the last one first. -/
abbrev Given := List (String × String)

namespace Given

def last? (g : Given) (name : String) : Option String :=
  (g.find? (·.1 = name)).map (·.2)

def all (g : Given) (name : String) : List String :=
  ((g.filter (·.1 = name)).map (·.2)).reverse

end Given

/-- Where the reading of a command line stands: the place, what was given here and in front of the
command's name, the option that waits for its value, and whether two dashes made words of all that
follows. -/
structure Reading where
  place : Place
  given : Given
  outer : Given
  pending : Option OptionRule
  isPlain : Bool

namespace Reading

def start : Reading :=
  ⟨.front, [], [], none, false⟩

def give (r : Reading) (name value : String) : Reading :=
  { r with given := (name, value) :: r.given, pending := none }

def giveOption (r : Reading) (o : OptionRule) (value : String) : Except Ending Reading :=
  if !o.accepts value || (!o.isRepeatable && (r.given.last? o.name).isSome) then .error .misuse
  else .ok (r.give o.name value)

def word (r : Reading) (w : String) : Except Ending Reading :=
  match r.place.word? with
  | none => .error .misuse
  | some (name, accepts) =>
    if !accepts w || (r.given.last? name).isSome then .error .misuse else .ok (r.give name w)

def optionOfLetter? (p : Place) (c : Char) : Option OptionRule :=
  p.options.find? (·.letter = some c)

/-- The value in front of which an equals sign may stand. -/
def withoutEquals : List Char → List Char
  | '=' :: rest => rest
  | rest => rest

/-- Letters behind one dash: switches, and at most one option whose value is the rest or follows. -/
def letters (r : Reading) : List Char → Except Ending Reading
  | [] => .ok r
  | c :: rest =>
    if c == 'h' || (c == 'V' && r.place == .front) then .error .help
    else
      match optionOfLetter? r.place c with
      | none => .error .misuse
      | some o =>
        if !o.takesValue then (r.giveOption o "").bind fun r => letters r rest
        else if rest.isEmpty then .ok { r with pending := some o }
        else r.giveOption o (String.ofList (withoutEquals rest))

/-- A name behind two dashes, with the text behind its equals sign if there is one. -/
def name (r : Reading) (name : String) (value : Option String) : Except Ending Reading :=
  if name == "help" || (name == "version" && r.place == .front) then .error
    (if value.isSome then .misuse else .help)
  else
    match r.place.options.find? (·.name = name), value with
    | none, _ => .error .misuse
    | some o, some value => if o.takesValue then r.giveOption o value else .error .misuse
    | some o, none => if o.takesValue then .ok { r with pending := some o } else r.giveOption o ""

def splitName (s : List Char) : String × Option String :=
  let name := String.ofList (s.takeWhile (· != '='))
  match s.dropWhile (· != '=') with
  | [] => (name, none)
  | _ :: value => (name, some (String.ofList value))

def commandName (r : Reading) (w : String) : Except Ending Reading :=
  if w == "help" then .ok { r with place := .helpOn [] }
  else
    match Place.ofName? w with
    | some p => .ok { r with place := p, outer := r.given, given := [] }
    | none => .error .misuse

/-- A word behind the word for help: a command's name, or the word itself, and no more than one of
them. -/
def helpName (r : Reading) (names : List String) (w : String) : Except Ending Reading :=
  if names.isEmpty && (w == "help" || (Place.ofName? w).isSome) then .ok
    { r with place := .helpOn [w] }
  else .error .misuse

def step (r : Reading) (w : String) : Except Ending Reading :=
  match r.place, r.pending, w.toList with
  | .helpOn names, _, _ => helpName r names w
  | _, some o, ['-'] => r.giveOption o w
  | _, some _, '-' :: _ => .error .misuse
  | _, some o, _ => r.giveOption o w
  | p, none, s =>
    if r.isPlain then r.word w
    else
      match s with
      | ['-', '-'] => .ok { r with isPlain := true }
      | '-' :: '-' :: rest => let (n, value) := splitName rest; r.name n value
      | '-' :: c :: rest => r.letters (c :: rest)
      | _ => if p == .front then r.commandName w else r.word w

/-- What was given for an option of the log or the configuration file: behind the command's name, or
else in front of it. -/
def global? (r : Reading) (name : String) : Option String :=
  (r.given.last? name).orElse fun _ => r.outer.last? name

/-- How often the option for more log was given, behind the command's name if it was given there,
and 255 at most. -/
def verbosity (r : Reading) : Nat :=
  let inner := (r.given.all "verbose").length
  min 255 (if inner = 0 then (r.outer.all "verbose").length else inner)

def backend (r : Reading) : BackendSection :=
  ⟨r.given.last? "provider", r.given.last? "model", r.given.last? "api-key",
    r.given.last? "base-url"⟩

def mode (r : Reading) : String :=
  (r.given.last? "mode").getD "fast"

/-- The names of reviewers in all lists that were given, each list split at its commas. -/
def agents (r : Reading) : Option (List String) :=
  match r.given.all "agents" with
  | [] => none
  | lists =>
    some (lists.flatMap fun s => (Text.piecesBetween (· == ',') s.toList).map String.ofList)

def command? (r : Reading) : Option Command :=
  match r.place with
  | .audit =>
    (r.given.last? "file").map fun file =>
      .audit ⟨file, r.mode, r.given.last? "chain", r.agents, (r.given.last? "json").isSome,
        r.backend⟩
  | .address =>
    (r.given.last? "address").map fun address =>
      .address
        ⟨address, (r.given.last? "chain").getD "ethereum", r.mode, (r.given.last? "json").isSome,
          r.backend⟩
  | .serve =>
    some
      (.serve ⟨(r.given.last? "port").bind port?, r.given.last? "host", r.given.last? "db",
        r.backend⟩)
  | .validate => (r.given.last? "config").map .validate
  | _ => none

def finish (r : Reading) : Except Ending CommandLine :=
  match r.place, r.pending, r.command? with
  | .helpOn _, _, _ => .error .help
  | _, none, some c =>
    .ok ⟨r.verbosity, (r.global? "json-logs").isSome, (r.global? "no-color").isSome,
      r.global? "config", c⟩
  | _, _, _ => .error .misuse

end Reading

def ofWords (words : List String) : Except Ending CommandLine :=
  (words.foldlM Reading.step .start).bind Reading.finish

end AuditPanel.CommandLine
