import Variorum.Json.Tree

/-!
# Reading trees as data

A decoder says what a tree has to be and what it stands for. It is given room for the containers
that may still be nested: a tree that is used may not be nested too deep, one that is ignored may.
-/

namespace Variorum.Json

/-- What a tree is read as, if it has the right form and its containers find room. -/
def Decoder (α : Type) : Type :=
  (room : Nat) → Tree → Option α

namespace Decoder

/-- How many containers a text that is used may nest. -/
def wholeRoom : Nat := 127

def run? {α : Type} (d : Decoder α) (s : String) : Option α :=
  (Tree.read? s).bind (d wholeRoom)

/-! ## Simple trees -/

def string : Decoder String
  | _, .text units => units.text?
  | _, _ => none

def bool : Decoder Bool
  | _, .bool b => some b
  | _, _ => none

def word : Decoder Nat
  | _, .number n => n.word?
  | _, _ => none

def nullable {α : Type} (d : Decoder α) : Decoder (Option α)
  | _, .null => some none
  | room, t => (d room t).map some

/-! ## Containers -/

def list {α : Type} (d : Decoder α) : Decoder (List α)
  | room + 1, .array items => items.mapM (d room)
  | _, _ => none

/-- Puts `a` under a key among entries in the order of their keys, in the place of what stood there.
-/
def insertOrdered {α : Type} (key : String) (a : α) : List (String × α) → List (String × α)
  | [] => [(key, a)]
  | (k, b) :: rest =>
    if key < k then (key, a) :: (k, b) :: rest
    else if key = k then (key, a) :: rest
    else (k, b) :: insertOrdered key a rest

def member {α : Type} (d : Decoder α) (room : Nat) (m : Units × Tree) : Option (String × α) := do
  return (← m.1.text?, ← d room m.2)

/-- An object of what `d` reads, in the order of the keys. The last member of a key counts. -/
def map {α : Type} (d : Decoder α) : Decoder (List (String × α))
  | room + 1, .object members => do
    let entries ← members.mapM (member d room)
    return entries.foldl (fun sorted e => insertOrdered e.1 e.2 sorted) []
  | _, _ => none

/-! ## Records -/

/-- The fields of a record that are given, and the room inside of it. -/
structure Fields where
  room : Nat
  given : List (String × Tree)

/-- The fields of a record: an object of named fields, in which a field is given once at most and
other members are ignored, or an array of the fields in their order, of which the last may be
missing. -/
def fields (names : List String) : Decoder Fields
  | room + 1, .object members => do
    let entries ← members.mapM (member (fun _ t => some t) room)
    let given := entries.filter fun e => names.contains e.1
    if (given.map (·.1)).Nodup then some { room, given } else none
  | room + 1, .array items =>
    if items.length ≤ names.length then some { room, given := names.zip items } else none
  | _, _ => none

namespace Fields

def required {α : Type} (fs : Fields) (name : String) (d : Decoder α) : Option α :=
  (fs.given.lookup name).bind (d fs.room)

def optional {α : Type} (fs : Fields) (name : String) (d : Decoder α) (default : α) : Option α :=
  match fs.given.lookup name with
  | some t => d fs.room t
  | none => some default

end Fields

/-! ## Trees of any form -/

mutual

/-- Whether every text of a tree is one, every number is in the range of floats, and its containers
find room. -/
def isSound (room : Nat) : Tree → Bool
  | .null => true
  | .bool _ => true
  | .number n => n.float?.isSome
  | .text units => units.text?.isSome
  | .array items => room != 0 && areSound (room - 1) items
  | .object members => room != 0 && haveSound (room - 1) members

def areSound (room : Nat) : List Tree → Bool
  | [] => true
  | t :: ts => isSound room t && areSound room ts

def haveSound (room : Nat) : List (Units × Tree) → Bool
  | [] => true
  | (key, t) :: rest => key.text?.isSome && isSound room t && haveSound room rest

end

def any : Decoder Tree
  | room, t => if isSound room t then some t else none

end Decoder

end Variorum.Json
