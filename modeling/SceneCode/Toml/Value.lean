import SceneCode.Number.Binary

/-!
# Values of configuration files

The values of TOML 1.0. A table remembers how it was written, because that decides whether and
how later lines of the file may still add to it.
-/

namespace SceneCode.Toml

structure Date where
  year : Nat
  month : Nat
  day : Nat
  deriving DecidableEq

structure Time where
  hour : Nat
  minute : Nat
  second : Nat
  nanosecond : Nat
  deriving DecidableEq

/-- A date, a time of day, or both, then perhaps with an offset in minutes. -/
inductive Moment
  | date (date : Date)
  | time (time : Time)
  | dateTime (date : Date) (time : Time) (offset : Option Int)
  deriving DecidableEq

/-- How a table came about. -/
inductive Origin
  /-- Written in braces: it is complete. -/
  | braces
  /-- By a header of its own: tables below it may follow. -/
  | header
  /-- As a part of the path of a header: it may get a header of its own. -/
  | path
  /-- By a dotted key: more dotted keys may follow. -/
  | dotted
  deriving DecidableEq

inductive Value
  | string (text : String)
  | integer (value : Int)
  | float (value : Double)
  | boolean (value : Bool)
  | moment (moment : Moment)
  | array (items : List Value)
  | table (origin : Origin) (entries : List (String × Value))
  /-- The tables with the same header in double brackets. -/
  | tables (elements : List Value)

/-- The entries of a table: keys that differ, with their values. -/
abbrev Entries := List (String × Value)

end SceneCode.Toml
