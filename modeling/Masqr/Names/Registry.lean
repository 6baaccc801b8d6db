import Mathlib
import Masqr.Lib.Prog

/-!
The part of the registry that says which resolver answers which names: a key with a key
for each rule, and values in those.

Windows compares names without case, so a name here stands for all its spellings. The key
of the rules is taken to be there; where it is missing, a rule written creates it and a
sweep finds nothing, as with an empty one.
-/

namespace Masqr.Names

open Masqr.Lib

def REG_SZ : ℕ := 1
def REG_DWORD : ℕ := 4
def REG_MULTI_SZ : ℕ := 7
def NO_ERROR : ℕ := 0
def ERROR_FILE_NOT_FOUND : ℕ := 2

/-- A value: its type, and its bytes. -/
structure Value where
  kind : ℕ
  data : List UInt8
  deriving DecidableEq

/-- The values of one rule. -/
abbrev Rule := Std.ExtTreeMap String Value

/-- The rules of the machine. -/
abbrev Rules := Std.ExtTreeMap String Rule

/-! ### Text in the registry -/

def utf16 (c : Char) : List UInt16 :=
  if c.val < 0x10000 then [c.val.toUInt16]
  else
    let v : UInt32 := c.val - 0x10000
    [((0xd800 : UInt32) + v >>> 10).toUInt16, ((0xdc00 : UInt32) + (v &&& 0x3ff)).toUInt16]

/-- A text as Windows takes it: in UTF-16, with a zero at the end. -/
def wide (text : String) : List UInt16 := text.toList.flatMap utf16 ++ [0]

/-- The same buffer, in bytes. -/
def asBytes (encoded : List UInt16) : List UInt8 :=
  encoded.flatMap fun (u : UInt16) => [u.toUInt8, (u >>> 8).toUInt8]

/-- The whole pairs of a buffer of bytes. -/
def units : List UInt8 → List UInt16
  | lo :: hi :: rest => (lo.toUInt16 ||| hi.toUInt16 <<< 8) :: units rest
  | _ => []

/-- The text of a run of units, a surrogate without its partner replaced. -/
def fromUtf16Lossy : List UInt16 → List Char
  | [] => []
  | u :: rest =>
    if u < 0xd800 ∨ 0xe000 ≤ u then Char.ofNat u.toNat :: fromUtf16Lossy rest
    else
      match rest with
      | [] => ['\uFFFD']
      | v :: rest' =>
        if u < 0xdc00 ∧ 0xdc00 ≤ v ∧ v < 0xe000 then
          Char.ofNat (0x10000 + (u.toNat - 0xd800) * 0x400 + (v.toNat - 0xdc00))
            :: fromUtf16Lossy rest'
        else '\uFFFD' :: fromUtf16Lossy (v :: rest')

/-! ### Calls -/

/-- The calls on the rules, and the wait for the canary between them. -/
inductive Call
  | create (name : String)
  | openKey (name : Option String)
  | set (name value : String) (v : Value)
  | subkeys
  | query (name value : String)
  | delete (name : String)
  | arrived

/-- What a call answers: a status, a key that was opened, names, a value, or whether the
canary came. -/
abbrev Call.Answer : Call → Type
  | create _ | set _ _ _ | delete _ => ℕ
  | openKey _ | arrived => Bool
  | subkeys => List String
  | query _ _ => Option Value

abbrev Reg := Prog Call Call.Answer

/-- What a call does. A refusal changes nothing; an enumeration that fails stops there. -/
def perform (r : Rules) : (c : Call) → Outcome → c.Answer × Rules
  | .create name, o =>
    (o.status, if o = .accepted ∧ r[name]? = none then r.insert name ∅ else r)
  | .openKey none, o => (decide (o = .accepted), r)
  | .openKey (some name), o => (decide (o = .accepted) && r[name]?.isSome, r)
  | .set name value v, o =>
    match r[name]? with
    | none => (ERROR_FILE_NOT_FOUND, r)
    | some rule => (o.status, if o = .accepted then r.insert name (rule.insert value v) else r)
  | .subkeys, .refused n => (r.keys.take n, r)
  | .subkeys, _ => (r.keys, r)
  | .query name value, o =>
    (if o = .accepted then r[name]?.bind fun rule => rule[value]? else none, r)
  | .delete name, o =>
    if r[name]? = none then (ERROR_FILE_NOT_FOUND, r)
    else (o.status, if o = .accepted then r.erase name else r)
  | .arrived, o => (decide (o = .accepted), r)

lemma getElem?_erase (r : Rules) (n k : String) :
    (r.erase n)[k]? = if n = k then none else r[k]? := by
  rw [Std.ExtTreeMap.getElem?_erase]
  simp

lemma getElem?_insert (r : Rules) (n k : String) (rule : Rule) :
    (r.insert n rule)[k]? = if n = k then some rule else r[k]? := by
  rw [Std.ExtTreeMap.getElem?_insert]
  simp

lemma perform_create (r : Rules) (name : String) (o : Outcome) :
    (perform r (.create name) o).2
      = if o = .accepted then r.insert name (r[name]?.getD ∅) else r := by
  refine Std.ExtTreeMap.ext_getElem? fun k => ?_
  simp only [perform]
  split_ifs with h1 h2 h2
  · rw [h1.2, Option.getD_none]
  · exact absurd h1.1 h2
  · rw [getElem?_insert]
    split_ifs with hk
    · subst hk
      cases hr : r[name]? with
      | none => exact absurd ⟨h2, hr⟩ h1
      | some rule => rfl
    · rfl
  · rfl

lemma perform_set {r : Rules} {name : String} {rule : Rule} (h : r[name]? = some rule)
    (value : String) (v : Value) (o : Outcome) : perform r (.set name value v) o
      = (o.status, if o = .accepted then r.insert name (rule.insert value v) else r) := by
  simp only [perform, h]

lemma perform_delete (r : Rules) (name : String) (o : Outcome) :
    (perform r (.delete name) o).2 = if o = .accepted then r.erase name else r := by
  simp only [perform]
  split_ifs with h1 h2 h2
  · refine Std.ExtTreeMap.ext_getElem? fun k => ?_
    rw [getElem?_erase]
    split_ifs with hk
    · rw [← hk, h1]
    · rfl
  all_goals rfl

/-- Why the machine's names could not be pointed at this core. -/
inductive NameError
  | registry (what : String) (code : ℕ)
  | notCarried
  deriving DecidableEq

def NameError.text : NameError → String
  | .registry what code => s!"the name policy could not be written ({what} failed with error {code})"
  | .notCarried => "the name policy was written but the machine did not use it"

/-- A program that may fail. -/
abbrev Try := ExceptT NameError Reg

def ask (c : Call) : Reg c.Answer := Prog.ask c

def create (name : String) : Try Unit := do
  let code : ℕ ← ExceptT.lift (ask (.create name))
  if code = NO_ERROR then pure () else throw (.registry "creating the rule" code)

def openKey (name : Option String) : Reg Bool := ask (.openKey name)

def write (rule name : String) (kind : ℕ) (data : List UInt8) : Try Unit := do
  let code : ℕ ← ExceptT.lift (ask (.set rule name ⟨kind, data⟩))
  if code = NO_ERROR then pure () else throw (.registry "writing a value of the rule" code)

def text (value : String) : List UInt8 := asBytes (wide value)

/-- A list of namespaces, which the format spells as one string per entry and one empty
entry after. -/
def names (value : String) : List UInt8 := asBytes (wide value ++ [0])

def number (value : UInt32) : List UInt8 :=
  [value.toUInt8, (value >>> 8).toUInt8, (value >>> 16).toUInt8, (value >>> 24).toUInt8]

def setText (rule name value : String) : Try Unit := write rule name REG_SZ (text value)
def setNames (rule name value : String) : Try Unit := write rule name REG_MULTI_SZ (names value)
def setNumber (rule name : String) (value : UInt32) : Try Unit :=
  write rule name REG_DWORD (number value)

/-- The text a value holds, where it is one of the text type. -/
def Value.text (v : Value) : Option (List Char) :=
  if v.kind ≠ REG_SZ ∨ v.data.length = 0 then none
  else some (fromUtf16Lossy ((units v.data).takeWhile fun u => decide (u ≠ 0)))

/-- Asked for its type and size first, and then for its bytes. -/
def readText (rule name : String) : Reg (Option (List Char)) := do
  let sized : Option Value ← ask (.query rule name)
  if (sized.bind Value.text).isNone then return none
  let v : Option Value ← ask (.query rule name)
  return v.map fun v => fromUtf16Lossy ((units v.data).takeWhile fun u => decide (u ≠ 0))

def subkeys : Reg (List String) := ask .subkeys

end Masqr.Names
