import LedgerWatch.Text.CharacterClass
import LedgerWatch.Text.Decimal

/-!
# Log filters

A log filter is a list of directives separated by commas. A directive is a level, or it says what is
logged and at which level: a target, a span in brackets, which may test a field in braces, and the
level after an equals sign. Levels are named in any case or numbered from 0, which is off, to 5.

## Main definitions

- `LogLevel`, `LogLevel.ofText?`
- `LogFilter.Directive`, `LogFilter.parse`: the directives of a filter, or why it is none

## Design notes

Blanks around a directive do not take part in its shape. Its parts, however, are cut out of the text
as it is written, at the places that the shape gives. So a level has to reach the end of the text,
and blanks in front of a target push the equals sign into the level.
-/

namespace LedgerWatch

/-- How much is logged. -/
inductive LogLevel where
  | off
  | error
  | warn
  | info
  | debug
  | trace
  deriving DecidableEq

namespace LogLevel

/-- Every level, in the order of their numbers. -/
def all : List LogLevel := [off, error, warn, info, debug, trace]

def name : LogLevel → String
  | off => "off"
  | error => "error"
  | warn => "warn"
  | info => "info"
  | debug => "debug"
  | trace => "trace"

/-- The level of a number or a name. No text at all stands for errors. -/
def ofText? (text : String) : Option LogLevel :=
  ((Decimal.read? all.length text).bind fun n => all[n]?).or <|
    if text.isEmpty then some error
    else all.find? fun level => level.name == text.map Char.toLower

end LogLevel

namespace LogFilter

/-- One entry of a filter. -/
structure Directive where
  target : Option String := none
  span : Option String := none
  /-- The test of a field, which is not looked into. -/
  field : Option String := none
  level : LogLevel := .trace
  deriving DecidableEq

/-- Why a text is no filter. -/
inductive Defect where
  | malformed
  | unknownLevel
  deriving DecidableEq

def Defect.message : Defect → String
  | malformed => "invalid filter directive"
  | unknownLevel => "error parsing level filter: expected one of \"off\", \"error\", \"warn\", " ++
      "\"info\", \"debug\", \"trace\", or a number 0-5"

/-- Whether a level or a target may start with a character. -/
def startsTarget (c : Char) : Bool :=
  CharacterClass.alphanumeric.contains c || c == '-' || c == ':' || c == '_'

def trim (written : List Char) : List Char :=
  ((written.dropWhile CharacterClass.blank.contains).reverse.dropWhile
    CharacterClass.blank.contains).reverse

/-- The characters of a text from place `start` up to place `stop`. -/
def cut (written : List Char) (start stop : Nat) : String :=
  String.ofList ((written.take stop).drop start)

/-- A directive whose level starts at a place. What it is for is logged in full if nothing stands
there. -/
def withLevel (directive : Directive) (written : List Char) (start : Nat) :
    Except Defect Directive :=
  if (written.drop start).isEmpty then .ok { directive with level := .trace }
  else
    match LogLevel.ofText? (cut written start written.length) with
    | some level => .ok { directive with level }
    | none => .error .unknownLevel

/-- A directive whose span is closed before a place, from which on only a level may follow. -/
def afterSpan (directive : Directive) (written : List Char) (place : Nat) :
    List Char → Except Defect Directive
  | [] => .ok directive
  | '=' :: _ => withLevel directive written (place + 1)
  | _ :: _ => .error .malformed

/-- A directive whose field test starts at a place, with the shape from there on. The test ends at
the first closing brace, behind which the span is closed. -/
def withField (directive : Directive) (written : List Char) (start : Nat) (shape : List Char) :
    Except Defect Directive :=
  let (inside, rest) := shape.span (· ≠ '}')
  let stop := start + inside.length
  match rest with
  | '}' :: ']' :: rest =>
    if inside.isEmpty then .error .malformed
    else afterSpan { directive with field := some (cut written start stop) } written (stop + 2) rest
  | _ => .error .malformed

/-- A directive whose span starts at a place, with the shape from there on. -/
def withSpan (directive : Directive) (written : List Char) (start : Nat) (shape : List Char) :
    Except Defect Directive :=
  let (inside, rest) := shape.span fun c => c ≠ ']' && c ≠ '{'
  let stop := start + inside.length
  let spanned := { directive with span := some (cut written start stop) }
  match rest with
  | ']' :: rest => afterSpan spanned written (stop + 1) rest
  | '{' :: rest =>
    withField (if inside.isEmpty then directive else spanned) written (stop + 1) rest
  | _ => .error .malformed

/-- One directive. What is no level is a target, all of which is logged. -/
def parseDirective (text : String) : Except Defect Directive :=
  let written := text.toList
  match trim written with
  | [] => .error .malformed
  | '[' :: shape => withSpan {} written 1 shape
  | c :: shape =>
    if !startsTarget c then .error .malformed
    else
      let (inside, rest) := (c :: shape).span fun c => c ≠ '=' && c ≠ '['
      let directive : Directive := { target := some (cut written 0 inside.length) }
      match rest with
      | '=' :: _ => withLevel directive written (inside.length + 1)
      | '[' :: rest => withSpan directive written (inside.length + 1) rest
      | _ =>
        match LogLevel.ofText? text with
        | some level => .ok { level }
        | none => .ok { target := some text }

/-- The directives of a filter. Nothing at all between two commas is no directive. -/
def parse (text : String) : Except Defect (List Directive) :=
  ((text.splitOn ",").filter fun part => !part.isEmpty).mapM parseDirective

end LogFilter

end LedgerWatch
