import PowerTables.CommandLine.Command

/-!
# Which warnings are shown

Warnings are shown unless the level of messages is too low.  A filter, when there is one, takes
the place of that level.  It is a list of directives with commas between them: each gives a level
to all messages, or to those of a source, or to those that have a field.  The most particular
directive for a message decides.

## Main definitions

* `MessageKind` : where a message comes from and which fields it has.
* `LogDirective`, `LogDirective.ofChars?` : one entry of a filter.
* `LogFilter.rank`, `LogFilter.showsWarnings` : the level that a filter gives to the messages of
  the program, and whether its warnings are shown.
-/

namespace PowerTables

/-- Where a message comes from and the names of its fields. -/
structure MessageKind where
  source : String
  fields : List String
  deriving DecidableEq, Repr

/-- A level for all messages, or for those of the sources whose name starts in some way, or for
those with some field. -/
structure LogDirective where
  source : Option String := none
  field : Option String := none
  /-- The place of the level; zero shows nothing. -/
  rank : Nat
  deriving DecidableEq, Repr

namespace LogDirective

/-! ### Reading -/

/-- The place of the most detailed level. -/
def everything : Nat := LogLevel.trace.rank

/-- The place of a level by its name or its number; no level at all has the place zero. -/
def rankOf? (s : String) : Option Nat :=
  if Text.lower s = "off" || LogLevel.readPlace? s = some 0 then some 0
  else (LogLevel.ofText? s).map (·.rank)

/-- Whether a directive may start with a character, when it does not start with a bracket. -/
def isStart (c : Char) : Bool := c.isAlphanum || c = '-' || c = ':' || c = '_'

/-- Whether a character ends the name of a source. -/
def isSourceEnd (c : Char) : Bool := c = '=' || c = '['

/-- The directive with the level after an equals sign; the most detailed one when there is
none. -/
def ofLevel? (source field : Option String) (level : List Char) : Option LogDirective :=
  if level.isEmpty then some ⟨source, field, everything⟩
  else (rankOf? (String.ofList level)).map (LogDirective.mk source field)

/-- Reads the rest of a directive after its opening bracket: a field in braces, the closing
bracket, and perhaps a level.  What asks for the name or the value of something around a message
has no meaning here. -/
def ofBracket? (source : Option String) : List Char → Option LogDirective
  | '{' :: cs =>
    match Text.splitFirst? '}' cs with
    | some (field, ']' :: rest) =>
      if field.isEmpty || field.contains '=' then none
      else
        let field := some (String.ofList field)
        match rest with
        | '=' :: level => ofLevel? source field level
        | rest => if rest.all Text.isBlank then ofLevel? source field [] else none
    | _ => none
  | _ => none

/-- Reads a directive: a level for all messages, or a source or a bracket, each with or without
its level. -/
def ofChars? : List Char → Option LogDirective
  | [] => none
  | '[' :: cs => ofBracket? none cs
  | c :: cs =>
    if !isStart c then none
    else
      let text := String.ofList (c :: cs)
      let source := String.ofList ((c :: cs).takeWhile (!isSourceEnd ·))
      match (c :: cs).dropWhile (!isSourceEnd ·) with
      | '=' :: level => ofLevel? (some source) none level
      | _ :: bracket => ofBracket? (some source) bracket
      | [] =>
        match rankOf? text with
        | some rank => some ⟨none, none, rank⟩
        | none => some ⟨some text, none, everything⟩

/-! ### Choosing -/

/-- Whether a directive is for a kind of messages. -/
def covers (d : LogDirective) (kind : MessageKind) : Bool :=
  d.source.all (·.toList.isPrefixOf kind.source.toList) && d.field.all kind.fields.contains

/-- The length of the name of the source; it is zero when the directive is for all sources. -/
def sourceLength (d : LogDirective) : Nat := (d.source.map String.utf8ByteSize).getD 0

/-- Whether a directive is less particular than another one: the name of its source is shorter,
or it is as long but only the other one asks for a field. -/
def isWider (d other : LogDirective) : Bool :=
  d.sourceLength < other.sourceLength ||
    (d.sourceLength == other.sourceLength && d.field.isNone && other.field.isSome)

/-- The more particular of two directives, the later one when neither is. -/
def prefer (best : Option LogDirective) (d : LogDirective) : Option LogDirective :=
  match best with
  | some b => if d.isWider b then some b else some d
  | none => some d

end LogDirective

namespace LogFilter

/-- The kind of the program's own messages. -/
def programMessages : MessageKind := ⟨"gridframe_cli::commands", ["message"]⟩

/-- The directives of a filter; what cannot be read is left out. -/
def directives (filter : String) : List LogDirective :=
  (Text.splitChars ',' filter.toList).filterMap LogDirective.ofChars?

/-- The place of the level that a filter gives to a kind of messages. -/
def rank (filter : String) (kind : MessageKind) : Nat :=
  match ((directives filter).filter (·.covers kind)).foldl LogDirective.prefer none with
  | some d => d.rank
  | none => 0

/-- Whether warnings are shown at a level, or by the filter that takes its place. -/
def showsWarnings (level : LogLevel) (filter : Option String) : Bool :=
  LogLevel.warning.rank ≤ (filter.map (rank · programMessages)).getD level.rank

end LogFilter

end PowerTables
