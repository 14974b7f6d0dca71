import ClientSdk.ValidSchema

/-!
# Validity of Values

Which values may stand where a type is expected. A number must be in the range of its type, a
variable must be declared with a type that fits, and an object must give every field that is
required and no other. A single value may stand for a list of one.

## Main definitions

* `Declarations.accepts`: a value may stand where a type is expected.
* `Declarations.acceptsArguments`: arguments fit the parameters that are declared.
* `Declarations.acceptsDirectives`: directives may stand at a place.
-/

namespace ClientSdk

/-! ### Numbers -/

namespace Numeral

/-- The number that decimal digits denote. -/
def natValue (digits : List Char) : Nat :=
  digits.foldl (fun n digit => 10 * n + (digit.toNat - 48)) 0

/-- The number that digits with an optional sign denote. -/
def intValue : List Char → Int
  | '-' :: digits => -(natValue digits : Int)
  | '+' :: digits => natValue digits
  | digits => natValue digits

/-- A whole number of 32 bits. -/
def isInt32 (text : String) : Bool :=
  let n := intValue text.toList
  decide (-2147483648 ≤ n) && decide (n < 2147483648)

/-- The least positive number that a double-precision number cannot come close to: half a step
beyond the greatest one. -/
def doubleLimit : Nat := Nat.pow 2 1024 - Nat.pow 2 970

/-- `digits * 10 ^ exponent` is in the range of double-precision numbers. Where the number of
digits does not decide, both sides are compared. -/
def isFiniteDecimal (digits : List Char) (exponent : Int) : Bool :=
  let significant := digits.dropWhile (· == '0')
  let magnitude := significant.length + exponent
  if significant.isEmpty || decide (magnitude < 309) then true
  else if 309 < magnitude then false
  else
    decide (natValue significant * Nat.pow 10 exponent.toNat <
      doubleLimit * Nat.pow 10 (-exponent).toNat)

/-- The number is in the range of double-precision numbers. -/
def isFinite (text : String) : Bool :=
  let unsigned := Token.unsigned text.toList
  let whole := unsigned.takeWhile Char.isDigit
  let afterWhole := unsigned.dropWhile Char.isDigit
  let fraction :=
    match afterWhole with
    | '.' :: rest => rest.takeWhile Char.isDigit
    | _ => []
  let exponent := (afterWhole.dropWhile fun c => c != 'e' && c != 'E').drop 1
  isFiniteDecimal (whole ++ fraction) (intValue exponent - fraction.length)

end Numeral

/-! ### Variables -/

/-- Values of one type may stand where another is expected: null is allowed there if it is
allowed here, at every level. -/
def TypeRef.fits : TypeRef → TypeRef → Bool
  | named name nullable, named name' nullable' => name == name' && (!nullable || nullable')
  | list element nullable, list element' nullable' =>
    element.fits element' && (!nullable || nullable')
  | _, _ => false

/-- The value is the null value. -/
def Value.isNull : Value → Bool
  | null => true
  | _ => false

/-- A variable may stand where `type` is expected. A variable that may be null is allowed where
null is not, if there is a default value to take its place, here or there. -/
def VariableDecl.fits (var : VariableDecl) (type : TypeRef) (hasDefault : Bool) : Bool :=
  if !type.nullable && var.type.nullable then
    (hasDefault || var.default.any fun value => !value.isNull) &&
      var.type.fits (type.withNullable true)
  else var.type.fits type

namespace Declarations

/-! ### Leaves -/

/-- The type `name` is a scalar of no further meaning, which takes any value. -/
def isOpaqueScalar (declarations : Declarations) (name : String) : Bool :=
  !isStandardScalar name && declarations.bodySatisfies (· matches .scalar) name

/-- A whole number may stand for a value of the type `name`. -/
def acceptsInt (text name : String) : Bool :=
  name == "ID" || (name == "Int" && Numeral.isInt32 text) ||
    (name == "Float" && Numeral.isFinite text)

/-- A value of an enumeration may stand for a value of the type `name`. -/
def acceptsEnum (declarations : Declarations) (value name : String) : Bool :=
  declarations.bodySatisfies
    (fun
      | .enum values => values.contains value
      | _ => false)
    name

/-- The fields of the input type `name`. -/
def inputFields? (declarations : Declarations) (name : String) : Option (List InputDecl) :=
  match (declarations.type? name).map TypeDecl.body with
  | some (.input fields) => some fields
  | _ => none

/-! ### Values -/

/-- The parameter has to be given. -/
def isRequired (param : InputDecl) : Bool := !param.type.nullable && param.default.isNone

/-- No name is given twice, and every parameter that has to be given is. -/
def givesRequired {α : Type} (params : List InputDecl) (given : List (String × α)) : Bool :=
  allDistinct (given.map Prod.fst) &&
    (params.filter isRequired).all fun param => (given.lookup param.name).isSome

mutual

/-- A value may stand where `type` is expected. -/
def accepts (declarations : Declarations) (vars : List VariableDecl) (type : TypeRef)
    (hasDefault : Bool) : Value → Bool
  | .variableRef name =>
    (vars.find? (·.name == name)).any fun var => var.fits type hasDefault
  | .null => type.nullable
  | .int text => acceptsInt text type.leafName || declarations.isOpaqueScalar type.leafName
  | .float text =>
    (type.leafName == "Float" && Numeral.isFinite text) ||
      declarations.isOpaqueScalar type.leafName
  | .string _ =>
    type.leafName == "String" || type.leafName == "ID" ||
      declarations.isOpaqueScalar type.leafName
  | .boolean _ => type.leafName == "Boolean" || declarations.isOpaqueScalar type.leafName
  | .enum value =>
    declarations.acceptsEnum value type.leafName || declarations.isOpaqueScalar type.leafName
  | .list items =>
    match type.element? with
    | some element => acceptsAll declarations vars element items
    | none => declarations.isOpaqueScalar type.leafName
  | .object fields =>
    match declarations.inputFields? type.leafName with
    | some params => givesRequired params fields && acceptsEach declarations vars params fields
    | none => declarations.isOpaqueScalar type.leafName

/-- All values may stand where `type` is expected. -/
def acceptsAll (declarations : Declarations) (vars : List VariableDecl) (type : TypeRef) :
    List Value → Bool
  | [] => true
  | item :: items =>
    accepts declarations vars type false item && acceptsAll declarations vars type items

/-- Each value is given to a declared parameter and may stand for it. -/
def acceptsEach (declarations : Declarations) (vars : List VariableDecl)
    (params : List InputDecl) : List (String × Value) → Bool
  | [] => true
  | (name, value) :: given =>
    (match params.find? (·.name == name) with
      | some param => accepts declarations vars param.type param.default.isSome value
      | none => false) &&
      acceptsEach declarations vars params given

end

/-- Arguments fit the parameters that are declared. -/
def acceptsArguments (declarations : Declarations) (vars : List VariableDecl)
    (params : List InputDecl) (arguments : List (String × Value)) : Bool :=
  givesRequired params arguments && declarations.acceptsEach vars params arguments

/-! ### Directives -/

/-- A directive is declared, may stand at `location`, and has arguments that fit. -/
def acceptsDirective (declarations : Declarations) (vars : List VariableDecl)
    (location : String) (directive : Directive) : Bool :=
  (declarations.directive? directive.name).any fun declaration =>
    declaration.locations.contains location &&
      declarations.acceptsArguments vars declaration.arguments directive.arguments

/-- The directive may stand only once at one place. -/
def isSingular (declarations : Declarations) (directive : Directive) : Bool :=
  (declarations.directive? directive.name).any fun declaration => !declaration.repeatable

/-- Directives may stand together at `location`. -/
def acceptsDirectives (declarations : Declarations) (vars : List VariableDecl)
    (location : String) (directives : List Directive) : Bool :=
  directives.all (declarations.acceptsDirective vars location) &&
    allDistinct ((directives.filter declarations.isSingular).map (·.name))

end Declarations

end ClientSdk
