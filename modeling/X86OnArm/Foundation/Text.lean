import Mathlib.Data.List.Dedup
import Mathlib.Data.List.Sort
import Mathlib.Tactic.Common

/-! # Text as sequences of code points

A string of the modelled programs is a list of code points. Unlike `Char`, a
code point may be a surrogate: a program that decodes its arguments with
surrogate escapes holds one for every byte it could not decode.
-/

namespace Foundation

/-- A Unicode code point, surrogates included. -/
structure CodePoint where
  code : Nat
  bounded : code < 1114112
  deriving DecidableEq

namespace CodePoint

def ofChar (c : Char) : CodePoint where
  code := c.toNat
  bounded := by
    rcases c.valid with low | ⟨_, high⟩
    · exact Nat.lt_trans low (by decide)
    · exact high

instance : Coe Char CodePoint := ⟨ofChar⟩

@[ext] theorem ext {first second : CodePoint} (same : first.code = second.code) :
    first = second := by
  cases first
  cases second
  cases same
  rfl

end CodePoint

/-- A string of a modelled program. -/
abbrev Text := List CodePoint

instance : LawfulBEq Text := inferInstanceAs (LawfulBEq (List CodePoint))

/-- The text of a literal. -/
def text (literal : String) : Text := literal.toList.map CodePoint.ofChar

def colon : CodePoint := ':'

/-- A natural number as it is written. -/
def decimal (number : Nat) : Text := (Nat.toDigits 10 number).map CodePoint.ofChar

/-- Text the kernel can carry in an argument, an environment entry or a path. -/
def NulFree (value : Text) : Prop := (Char.ofNat 0 : CodePoint) ∉ value

instance (value : Text) : Decidable (NulFree value) := inferInstanceAs (Decidable (_ ∉ _))

/-- Lexicographic order by code point, as strings compare. -/
def Text.lt : Text → Text → Bool
  | _, [] => false
  | [], _ :: _ => true
  | first :: firstRest, second :: secondRest =>
      first.code < second.code || (first.code == second.code && Text.lt firstRest secondRest)

/-- `sorted(set(texts))`. -/
def sortedSet (texts : List Text) : List Text :=
  texts.dedup.insertionSort fun first second => Text.lt second first = false

end Foundation
