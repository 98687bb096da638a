import Landscape.Json.Conversion

/-!
# Thresholds of detection

A configuration gives two thresholds and says whether isolated elements are reported. It is checked
once; what the detection works with are limits that are known to be at least one.
-/

namespace Landscape

/-- What a degree is compared with: a number of at least one, or nothing that a degree reaches. -/
inductive Limit where
  | ratio (q : Rat) (one_le : 1 ≤ q)
  | never
  deriving DecidableEq

/-- The number of a limit that a degree reaches. -/
def Limit.reachedBy (limit : Limit) (degree : Nat) : Option Rat :=
  match limit with
  | .ratio q _ => if q ≤ degree then some q else none
  | .never => none

/-- What a detection compares degrees with. -/
structure Limits where
  bottleneck : Limit
  overCoupling : Limit
  isolated : Bool

/-- The limit of a number; one below one is refused with a message that has to spell it, and what is
no number is an error. -/
def Limit.ofJson (key : String) (value : Json) : Except Error Limit :=
  match value with
  | .int n => ofRat n
  | .bool b => ofRat (if b then 1 else 0)
  | .float x =>
    match Number.toRat? x with
    | some q => ofRat q
    | none => if x < 1 then .error (.invalid (.threshold key value)) else .ok .never
  | _ => .error (.notComparable "<" value.typeName)
where
  /-- The limit of an exact number. -/
  ofRat (q : Rat) : Except Error Limit :=
    if h : 1 ≤ q then .ok (.ratio q h)
    else do
      let _ ← value.spell
      throw (.invalid (.threshold key value))

/-- A configuration of the detection. -/
structure Thresholds where
  bottleneck : Int := 5
  overCoupling : Int := 7
  isolated : Bool := true
  deriving DecidableEq

/-- A value in a document, as far as a configuration tells values apart. -/
inductive ConfigValue where
  | integer (n : Int)
  | truth (b : Bool)
  | other (spelling : Except Error String)

namespace ConfigValue

/-- A JSON value in a configuration. -/
def ofJson : Json → ConfigValue
  | .int n => .integer n
  | .bool b => .truth b
  | value => .other value.spell

/-- How a value is spelled. -/
def spelling : ConfigValue → Except Error String
  | .integer n => Number.spell n
  | .truth b => .ok (Scalar.bool b).shown
  | .other spelling => spelling

end ConfigValue

/-- The fields of a document that concern a configuration, as far as they are there. -/
structure Overrides where
  bottleneck : Option ConfigValue
  overCoupling : Option ConfigValue
  isolated : Option ConfigValue

namespace Thresholds

/-- What the first threshold is called in documents. -/
def bottleneckKey : String := "bottleneck_threshold"

/-- What the second threshold is called in documents. -/
def overCouplingKey : String := "over_coupling_threshold"

/-- What the choice to report isolated elements is called in documents. -/
def isolatedKey : String := "detect_isolated"

/-- The limits of a configuration; a threshold below one is refused. -/
def check (t : Thresholds) : Except Error Limits := do
  let bottleneck ← Limit.ofJson bottleneckKey (.int t.bottleneck)
  let overCoupling ← Limit.ofJson overCouplingKey (.int t.overCoupling)
  return { bottleneck, overCoupling, isolated := t.isolated }

/-- A field of a configuration that must hold an integer. -/
def integerField (key : String) (value : Option ConfigValue) (default : Int) : Except Error Int :=
  match value with
  | none => .ok default
  | some (.integer n) => .ok n
  | some v => do throw (.malformed (.notAnInteger key (← v.spelling)))

/-- A field of a configuration that must hold a truth value. -/
def booleanField (key : String) (value : Option ConfigValue) (default : Bool) :
    Except Error Bool :=
  match value with
  | none => .ok default
  | some (.truth b) => .ok b
  | some v => do throw (.malformed (.notABoolean key (← v.spelling)))

/-- Let the fields of a document override a configuration, and check the outcome. -/
def override (t : Thresholds) (o : Overrides) : Except Error Thresholds := do
  let bottleneck ← integerField bottleneckKey o.bottleneck t.bottleneck
  let overCoupling ← integerField overCouplingKey o.overCoupling t.overCoupling
  let isolated ← booleanField isolatedKey o.isolated t.isolated
  let t : Thresholds := { bottleneck, overCoupling, isolated }
  let _ ← t.check
  return t

/-- The fields of a document that concern a configuration, by a way to look them up. -/
def overridesBy (field? : Text → Option ConfigValue) : Overrides where
  bottleneck := field? bottleneckKey
  overCoupling := field? overCouplingKey
  isolated := field? isolatedKey

/-- Read a configuration; nothing at all means the usual one. -/
def ofJson (d : Json) : Except Error Thresholds :=
  match d with
  | .null | .record _ => override {} (overridesBy fun key => (d.get? key).map ConfigValue.ofJson)
  | _ => .error (.malformed (.notAnObject .config d.typeName))

/-- Write a configuration. -/
def toJson (t : Thresholds) : Json :=
  .record [
    (bottleneckKey, .int t.bottleneck), (overCouplingKey, .int t.overCoupling),
    (isolatedKey, .bool t.isolated)]

/-- Whether every threshold has few enough digits to be written. -/
def checkWritable (t : Thresholds) : Except Error Unit := do
  let _ ← Number.spell t.bottleneck
  let _ ← Number.spell t.overCoupling

end Thresholds

namespace Limits

/-- The limits of a record with values of any kind, which are compared as they are. -/
def ofRecord (fields : List (Text × Json)) : Except Error Limits := do
  let known : List Text :=
    [Thresholds.bottleneckKey, Thresholds.overCouplingKey, Thresholds.isolatedKey]
  if let some (name, _) := fields.find? fun field => !known.contains field.1 then
    throw (.unknownArgument name)
  let usual : Thresholds := {}
  let value (key : Text) (default : Json) : Json := (fields.lookup key).getD default
  let bottleneck ←
    Limit.ofJson Thresholds.bottleneckKey (value Thresholds.bottleneckKey (.int usual.bottleneck))
  let overCoupling ←
    Limit.ofJson Thresholds.overCouplingKey
      (value Thresholds.overCouplingKey (.int usual.overCoupling))
  return {
    bottleneck, overCoupling
    isolated := (value Thresholds.isolatedKey (.bool usual.isolated)).isTruthy }

end Limits

end Landscape
