import Mathlib.Data.Rat.Defs
import Mathlib.Tactic.Common

/-! # JSON values in a dynamically typed program

What `json.loads` returns, and what a program may do with such a value without knowing its shape: ask for
its truth, call its `get`, index it, iterate over it.  Each raises where the value is of the wrong kind.

A text is its code points, since an escaped surrogate is a character of a text that cannot be written as UTF-8
(`encodable`).  A number is its value, `nonfinite` stands for the floats that have none.
-/

/-- What a program raises; `other` is an error of the world outside. -/
inductive Raised
  | attributeError
  | typeError
  | indexError
  | keyError
  | unicodeEncodeError
  | valueError (message : String)
  | runtimeError (message : String)
  | other (name : String)
deriving DecidableEq, Repr

inductive Json
  | null
  | bool (b : Bool)
  | num (q : Rat)
  | nonfinite
  | str (text : List Nat)
  | arr (xs : List Json)
  | obj (fields : List (List Nat × Json))

namespace Json

/-- The code points of a literal. -/
def text (s : String) : List Nat :=
  s.toList.map Char.toNat

/-- An object with literal keys. -/
def object (fields : List (String × Json)) : Json :=
  .obj (fields.map fun f => (text f.1, f.2))

/-! ### Reading -/

/-- `bool(x)`. -/
def truthy : Json → Bool
  | .null => false
  | .bool b => b
  | .num q => q != 0
  | .nonfinite => true
  | .str s => !s.isEmpty
  | .arr xs => !xs.isEmpty
  | .obj fs => !fs.isEmpty

/-- `x or y`. -/
def orElse (x y : Json) : Json :=
  if x.truthy then x else y

/-- `d[key] = value`: a new key comes last. -/
def insert (fields : List (List Nat × Json)) (key : List Nat) (value : Json) :
    List (List Nat × Json) :=
  if fields.any fun f => f.1 == key then
    fields.map fun f => if f.1 == key then (key, value) else f
  else fields ++ [(key, value)]

/-- `{**d, **extra}`. -/
def merge (fields extra : List (List Nat × Json)) : List (List Nat × Json) :=
  extra.foldl (fun fields f => insert fields f.1 f.2) fields

/-- The value of a key, `null` where there is none. -/
def lookup (fields : List (List Nat × Json)) (key : String) : Json :=
  match fields.find? fun f => f.1 == text key with
  | none => .null
  | some f => f.2

/-- `x.get(key)`. -/
def get (x : Json) (key : String) : Except Raised Json :=
  match x with
  | .obj fields => .ok (lookup fields key)
  | _ => .error .attributeError

/-- `x[0]`. -/
def first : Json → Except Raised Json
  | .arr [] => .error .indexError
  | .arr (x :: _) => .ok x
  | .str [] => .error .indexError
  | .str (c :: _) => .ok (.str [c])
  | .obj _ => .error .keyError
  | _ => .error .typeError

/-- `list(x)`. -/
def elements : Json → Except Raised (List Json)
  | .arr xs => .ok xs
  | .str s => .ok (s.map fun c => .str [c])
  | .obj fs => .ok (fs.map fun f => .str f.1)
  | _ => .error .typeError

def isObj : Json → Bool
  | .obj _ => true
  | _ => false

def isStr : Json → Bool
  | .str _ => true
  | _ => false

/-- `x == n` for an integer: a truth value counts as one, too. -/
def eqInt (x : Json) (n : Int) : Bool :=
  match x with
  | .num q => q == n
  | .bool b => (if b then 1 else 0) == n
  | _ => false

/-- `x == ns` for a list of integers. -/
def eqInts (x : Json) (ns : List Int) : Bool :=
  match x with
  | .arr xs => xs.length == ns.length && (xs.zip ns).all fun p => p.1.eqInt p.2
  | _ => false

theorem get_eq_ok {x v : Json} {key : String} :
    x.get key = .ok v ↔ ∃ fields, x = .obj fields ∧ lookup fields key = v := by
  cases x with
  | obj fields => simp [get]
  | null => simp [get]
  | bool b => simp [get]
  | num q => simp [get]
  | nonfinite => simp [get]
  | str s => simp [get]
  | arr xs => simp [get]

theorem get_isOk {x : Json} (key : String) : (∃ v, x.get key = .ok v) ↔ x.isObj = true := by
  cases x <;> simp [get, isObj]

theorem isObj_iff {x : Json} : x.isObj = true ↔ ∃ fields, x = .obj fields := by
  cases x <;> simp [isObj]

theorem first_eq_ok {x v : Json} (hv : v.isObj = true) :
    x.first = .ok v ↔ ∃ rest, x = .arr (v :: rest) := by
  cases x with
  | arr xs => cases xs <;> simp [first, eq_comm]
  | str s =>
      refine ⟨fun h => ?_, nofun⟩
      cases s with
      | nil => cases h
      | cons c s =>
          rw [← Except.ok.inj h] at hv
          cases hv
  | null => simp [first]
  | bool b => simp [first]
  | num q => simp [first]
  | nonfinite => simp [first]
  | obj fields => simp [first]

/-! ### Writing -/

/-- The text has no surrogates. -/
def encodableText (s : List Nat) : Bool :=
  s.all fun c => !(0xD800 ≤ c && c ≤ 0xDFFF)

mutual

/-- The value can be written as UTF-8. -/
def encodable : Json → Bool
  | .null => true
  | .bool _ => true
  | .num _ => true
  | .nonfinite => true
  | .str s => encodableText s
  | .arr xs => encodableList xs
  | .obj fields => encodableFields fields
termination_by structural x => x

def encodableList : List Json → Bool
  | [] => true
  | x :: xs => x.encodable && encodableList xs
termination_by structural xs => xs

def encodableFields : List (List Nat × Json) → Bool
  | [] => true
  | f :: fields => encodableField f && encodableFields fields
termination_by structural fields => fields

def encodableField : List Nat × Json → Bool
  | (key, x) => encodableText key && x.encodable
termination_by structural f => f

end

@[simp] theorem encodable_null : encodable .null = true := rfl

@[simp] theorem encodable_bool (b : Bool) : encodable (.bool b) = true := rfl

@[simp] theorem encodable_num (q : Rat) : encodable (.num q) = true := rfl

@[simp] theorem encodable_arr_nil : encodable (.arr []) = true := rfl

theorem encodable_arr {xs : List Json} :
    encodable (.arr xs) = true ↔ ∀ x ∈ xs, x.encodable = true := by
  rw [encodable]
  induction xs with
  | nil => simp [encodableList]
  | cons x xs ih => rw [encodableList, Bool.and_eq_true, ih, List.forall_mem_cons]

theorem encodable_obj {fields : List (List Nat × Json)} :
    encodable (.obj fields) = true ↔ ∀ f ∈ fields, encodableText f.1 = true ∧ f.2.encodable = true := by
  rw [encodable]
  induction fields with
  | nil => simp [encodableFields]
  | cons f fields ih =>
      rw [encodableFields, Bool.and_eq_true, ih, List.forall_mem_cons, encodableField.eq_def,
        Bool.and_eq_true]

theorem encodableText_text (s : String) : encodableText (text s) = true := by
  rw [encodableText, text, List.all_map, List.all_eq_true]
  intro c _
  have h := c.valid
  rw [UInt32.isValidChar, Nat.isValidChar] at h
  simp only [Function.comp_apply, Char.toNat, Bool.not_eq_true', Bool.and_eq_false_iff,
    decide_eq_false_iff_not, not_le]
  omega

@[simp] theorem encodable_str_text (s : String) : encodable (.str (text s)) = true :=
  encodableText_text s

theorem encodable_object {fields : List (String × Json)} :
    (object fields).encodable = true ↔ ∀ f ∈ fields, f.2.encodable = true := by
  rw [object, encodable_obj, List.forall_mem_map]
  simp only [encodableText_text, true_and]

theorem encodable_lookup {fields : List (List Nat × Json)} (h : encodable (.obj fields) = true)
    (key : String) : (lookup fields key).encodable = true := by
  rw [lookup]
  cases hf : fields.find? fun f => f.1 == text key with
  | none => rfl
  | some f => exact (encodable_obj.mp h f (List.mem_of_find?_eq_some hf)).2

theorem encodable_get {x v : Json} {key : String} (hx : x.encodable = true) (h : x.get key = .ok v) :
    v.encodable = true := by
  obtain ⟨fields, rfl, rfl⟩ := get_eq_ok.mp h
  exact encodable_lookup hx key

theorem encodable_orElse {x y : Json} (hx : x.encodable = true) (hy : y.encodable = true) :
    (x.orElse y).encodable = true := by
  rw [orElse]
  split
  · exact hx
  · exact hy

end Json
