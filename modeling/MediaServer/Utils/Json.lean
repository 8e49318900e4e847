import MediaServer.Utils.DataBuffer

/-!
# JSON values and numbers in texts

`nlohmann::json` as the room service uses it.  The requests come as texts, which
`protoo_server` has already parsed and printed again, so they are values here.  What is
printed is a value too.

An access that the library answers with an exception has the result `none`: a
conversion of a value of another kind, or an access to a field that is not there, which
makes a `null` and then cannot convert it.

`stoi` and `stoul` are the functions of the C++ library, `string_split` is the one of
`utils/stringex`.
-/

namespace MediaServer

/-- A value of `nlohmann::json`.  Of a number the program reads only the whole part. -/
inductive Json where
  | null
  | bool (value : Bool)
  | num (whole : Int)
  | str (text : Bytes)
  | arr (items : List Json)
  | obj (fields : List (Bytes × Json))

/-- The number that a conversion to `uint32_t` stores. -/
def wrapUint32 (n : Int) : Nat := (n % (2 ^ 32 : Nat)).toNat

/-- The number that a conversion to `uint64_t` stores. -/
def wrapUint64 (n : Int) : Nat := (n % (2 ^ 64 : Nat)).toNat

namespace Json

/-- `find`.  Only an object has fields. -/
def find (j : Json) (key : String) : Option Json :=
  match j with
  | .obj fields => fields.lookup (ascii key)
  | _ => none

/-- `is_number`. -/
def isNumber : Json → Bool
  | .num _ => true
  | _ => false

/-- `is_object`. -/
def isObject : Json → Bool
  | .obj _ => true
  | _ => false

/-- The text of a string. -/
def text? : Json → Option Bytes
  | .str text => some text
  | _ => none

/-- The truth value of a boolean. -/
def bool? : Json → Option Bool
  | .bool value => some value
  | _ => none

/-- The number in a value that converts to `int` or `uint32_t`: a boolean does as well. -/
def number? : Json → Option Int
  | .num whole => some whole
  | .bool value => some (if value then 1 else 0)
  | _ => none

/-- The items of an array. -/
def items? : Json → Option (List Json)
  | .arr items => some items
  | _ => none

/-- A field that has to be a string. -/
def textAt (j : Json) (key : String) : Option Bytes := (j.find key).bind text?

/-- A field that is converted to `int`. -/
def intAt (j : Json) (key : String) : Option Int := ((j.find key).bind number?).map wrapInt

/-- A field that is converted to `uint32_t`. -/
def uint32At (j : Json) (key : String) : Option Nat := ((j.find key).bind number?).map wrapUint32

/-- A field that is converted to `uint64_t`, which the library uses itself for numbers: a
boolean does not convert. -/
def uint64At (j : Json) (key : String) : Option Nat :=
  ((j.find key).filter isNumber).bind number? |>.map wrapUint64

/-- A field that is an array. -/
def itemsAt (j : Json) (key : String) : Option (List Json) := (j.find key).bind items?

/-- A field that is an object. -/
def objectAt (j : Json) (key : String) : Option Json := (j.find key).filter isObject

/-- A field for which `is_number` is asked before it is converted to `int`. -/
def numberAt (j : Json) (key : String) : Option Int :=
  ((j.find key).filter isNumber).bind number? |>.map wrapInt

end Json

/-! ## Numbers and parts of texts -/

/-- The digits at the start of a text, and the number they write. -/
def leadingDigits (text : Bytes) : Option Nat :=
  match text.takeWhile fun c => decide (48 ≤ c.toNat ∧ c.toNat ≤ 57) with
  | [] => none
  | digits => some (digits.foldl (fun n c => n * 10 + (c.toNat - 48)) 0)

/-- A number with its sign, behind white space, as `strtol` reads it. -/
def leadingNumber (text : Bytes) : Option Int :=
  match text.dropWhile fun c => decide (c.toNat = 32 ∨ 9 ≤ c.toNat ∧ c.toNat ≤ 13) with
  | 45 :: rest => (leadingDigits rest).map fun n => -(n : Int)
  | 43 :: rest => (leadingDigits rest).map fun n => (n : Int)
  | rest => (leadingDigits rest).map fun n => (n : Int)

/-- `std::stoi`: it throws when there is no number, or one that is no `int`. -/
def stoi (text : Bytes) : Option Int :=
  (leadingNumber text).filter fun n => decide (-(2 ^ 31 : Nat) ≤ n ∧ n < (2 ^ 31 : Nat))

/-- `(uint32_t)std::stoul`: it throws when there is no number, or one that is no
`unsigned long`.  A negative one wraps around. -/
def stoul32 (text : Bytes) : Option Nat :=
  ((leadingNumber text).filter fun n => decide (n.natAbs < 2 ^ 64)).map wrapUint32

/-- `string_split` at blanks.  Nothing stands behind a blank at the end. -/
def splitBlanks : Bytes → Bytes → List Bytes
  | [], [] => []
  | part, [] => [part]
  | part, c :: rest =>
    if c = 32 then part :: splitBlanks [] rest else splitBlanks (part ++ [c]) rest

/-- `string_split` at blanks. -/
def stringSplit (text : Bytes) : List Bytes := splitBlanks [] text

end MediaServer
