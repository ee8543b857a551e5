import PathFilter.Verbosity.Basic

/-!
# Flag tokens

Levels are set by tokens. A token is the name of a flag with a level after it, or without one for
level 1; the names `all` and `none` stand for a whole family. Tokens are given in lists with commas
between them, and the tokens before one that is refused stay in force.

## Main definitions

* `FlagFault`: why a token is refused
* `FlagToken.parse`: the name and the level of a token
* `Verbosity.applyToken`, `Verbosity.applyList`: a verbosity after a token, and after a list

## Main results

* `Verbosity.applyTokens_append`: the tokens of two lists are applied one list after the other
-/

namespace PathFilter

/-- Why a flag token is refused. -/
inductive FlagFault where
  /-- The token is empty. -/
  | empty
  /-- The token begins with a digit. -/
  | noName (token : Text)
  /-- What follows the name is no number up to 255. -/
  | badLevel (token : Text)
  /-- The family has no flag of this name. -/
  | unknown (family : Family) (name : Text)
deriving DecidableEq, Repr

/-- The wording of a refusal. -/
def FlagFault.message : FlagFault → String
  | empty => "empty flag token"
  | noName token => "missing flag name in: " ++ token.toString
  | badLevel token => "invalid level in flag: " ++ token.toString
  | unknown family name => "unknown " ++ family.name ++ " flag: " ++ name.toString

/-- A flag token taken apart. -/
structure FlagToken where
  /-- The name before the level. -/
  name : Text
  /-- The level. -/
  level : UInt8
deriving DecidableEq, Repr

namespace FlagToken

/-- The number that a text of decimal digits spells, provided that it is a level. -/
def level? (digits : Text) : Option UInt8 :=
  if digits.all Char.isDigit then
    let n := digits.foldl (fun n c => 10 * n + (c.toNat - '0'.toNat)) 0
    if n ≤ 255 then some n.toUInt8 else none
  else none

/-- **A token taken apart** at its first digit. -/
def parse (token : Text) : Except FlagFault FlagToken :=
  let name := token.takeWhile fun c => !c.isDigit
  let digits := token.dropWhile fun c => !c.isDigit
  if token = [] then .error .empty
  else if name = [] then .error (.noName token)
  else if digits = [] then .ok ⟨name, 1⟩
  else
    match level? digits with
    | some l => .ok ⟨name, l⟩
    | none => .error (.badLevel token)

end FlagToken

namespace Verbosity

/-- The verbosity after one token of a family. -/
def applyToken (v : Verbosity) (f : Family) (token : Text) : Except FlagFault Verbosity :=
  match FlagToken.parse token with
  | .error fault => .error fault
  | .ok ⟨name, l⟩ =>
    if name = "all".toList then .ok (v.setAll f l)
    else if name = "none".toList then .ok (v.setAll f 0)
    else
      match Flag.named? f name with
      | some flag => .ok (v.set flag l)
      | none => .error (.unknown f name)

/-- The verbosity after some tokens, and the refusal of the first that is refused. -/
def applyTokens (v : Verbosity) (f : Family) : List Text → Verbosity × Option FlagFault
  | [] => (v, none)
  | token :: tokens =>
    match v.applyToken f token with
    | .ok w => applyTokens w f tokens
    | .error fault => (v, some fault)

/-- The tokens of a list. -/
def tokensOf (list : Text) : List Text := (pieces (· == ',') list).filter (· ≠ [])

/-- **The verbosity after a list of tokens**, and the refusal of the first that is refused. -/
def applyList (v : Verbosity) (f : Family) (list : Text) : Verbosity × Option FlagFault :=
  v.applyTokens f (tokensOf list)

@[simp] theorem applyTokens_nil (v : Verbosity) (f : Family) : v.applyTokens f [] = (v, none) := rfl

/-- The tokens of two lists are applied one list after the other. -/
theorem applyTokens_append (v : Verbosity) (f : Family) (tokens others : List Text) :
    v.applyTokens f (tokens ++ others) =
      match v.applyTokens f tokens with
      | (w, none) => w.applyTokens f others
      | refused => refused := by
  induction tokens generalizing v with
  | nil => rfl
  | cons token tokens ih =>
    cases h : v.applyToken f token with
    | error fault => simp [applyTokens, h]
    | ok w => simpa [applyTokens, h] using ih w

end Verbosity

end PathFilter
