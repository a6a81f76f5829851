/-!
# TOML values

A TOML text describes a table: a list of keys with items, in the order in which they were first
written. Numbers with a fraction and dates are kept as they are spelled.
-/

namespace SealedChat.Toml

/-- How a table came to be, which decides what may be added to it later. -/
inductive Origin where
  /-- It is a value, between braces. -/
  | value
  /-- It has a header of its own. -/
  | header
  /-- Headers of other tables lead through it. -/
  | implied
  /-- Dotted keys lead through it. -/
  | dotted
deriving DecidableEq, Repr

inductive Item where
  | string (s : String)
  | integer (n : Int)
  | float (spelling : String)
  | boolean (b : Bool)
  | date (spelling : String)
  | array (items : List Item)
  | table (origin : Origin) (entries : List (String × Item))
  /-- Tables that share a header, one row for each time it stands. -/
  | rows (tables : List (List (String × Item)))

abbrev Table := List (String × Item)

end SealedChat.Toml
