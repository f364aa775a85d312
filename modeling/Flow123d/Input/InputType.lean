import Flow123d.Input.Text

/-!
# Input types

The types against which the input is checked. They are finished: a type is built of types
that have been finished before it.
-/

set_option autoImplicit false

namespace Flow123d

inductive DefaultType where
  | defaultAtDeclaration
  | defaultAtReadTime
  | noDefaultOptionalType
  | noDefaultObligatoryType
  deriving DecidableEq

structure Default where
  value : String
  type : DefaultType

namespace Default

def hasValueAtDeclaration (dflt : Default) : Bool := dflt.type = .defaultAtDeclaration

def isObligatory (dflt : Default) : Bool := dflt.type = .noDefaultObligatoryType

end Default

/-- `Record::Key`; its index is the position in the record. -/
structure TypeKey (T : Type) where
  key : String
  type : T
  dflt : Default

/-- `Type::Record`. -/
structure TypeRecord (T : Type) where
  typeName : String
  keys : List (TypeKey T)
  autoConversionKeyIdx : Option ℕ

/-- `Type::Selection`, the names with their values. -/
structure TypeSelection where
  typeName : String
  keys : List (String × ℤ)

inductive FileType where
  | inputFile
  | outputFile
  deriving DecidableEq

/-- `typeDefault` is the default of the key `TYPE` of an abstract record. -/
inductive TypeBase where
  | record (record : TypeRecord TypeBase)
  | abstractRecord (typeName : String) (typeDefault : Default)
      (listOfChilds : List (TypeRecord TypeBase))
  | array (typeOfValues : TypeBase) (lowerBound upperBound : ℕ)
  | integer (lowerBound upperBound : ℤ)
  | double (lowerBound upperBound : ℚ)
  | bool
  | selection (selection : TypeSelection)
  | string
  | fileName (type : FileType)

/-- The exception of a default value that does not have its type. -/
structure WrongDefault where
  defaultStr : String
  typeName : String

/-! ## Checks of the types -/

namespace TypeBase

def matchSize (lowerBound upperBound size : ℕ) : Bool := lowerBound ≤ size && size ≤ upperBound

def matchInt (lowerBound upperBound value : ℤ) : Bool :=
  lowerBound ≤ value && value ≤ upperBound

def matchDouble (lowerBound upperBound value : ℚ) : Bool :=
  lowerBound ≤ value && value ≤ upperBound

/-- Output files can not be absolute. -/
def matchFileName (type : FileType) (str : String) : Bool :=
  type = .inputFile || str.toList.head? ≠ some '/'

def fileTypeName : FileType → String
  | .inputFile => "FileName_input"
  | .outputFile => "FileName_output"

/-! ## Defaults of scalars -/

def boolFromDefault (str : String) : Except WrongDefault Bool :=
  if str = "true" then .ok true
  else if str = "false" then .ok false
  else .error ⟨str, "Bool"⟩

def integerFromDefault (lowerBound upperBound : ℤ) (str : String) : Except WrongDefault ℤ :=
  match streamInt str with
  | some value =>
      if matchInt lowerBound upperBound value then .ok value else .error ⟨str, "Integer"⟩
  | none => .error ⟨str, "Integer"⟩

def doubleFromDefault (lowerBound upperBound : ℚ) (str : String) : Except WrongDefault ℚ :=
  match streamDouble str with
  | some value =>
      if matchDouble lowerBound upperBound value then .ok value else .error ⟨str, "Double"⟩
  | none => .error ⟨str, "Double"⟩

def fileNameFromDefault (type : FileType) (str : String) : Except WrongDefault String :=
  if matchFileName type str then .ok str else .error ⟨str, fileTypeName type⟩

end TypeBase

namespace TypeSelection

/-- Nothing where the source throws `ExcSelectionKeyNotFound`. -/
def nameToInt (selection : TypeSelection) (key : String) : Option ℤ :=
  selection.keys.lookup key

def keyList (selection : TypeSelection) : String :=
  selection.keys.foldl (fun list key => list ++ "'" ++ key.1 ++ "' ") ""

def fromDefault (selection : TypeSelection) (str : String) : Except WrongDefault ℤ :=
  match selection.nameToInt str with
  | some value => .ok value
  | none => .error ⟨str, selection.typeName ++ " with values: " ++ selection.keyList⟩

end TypeSelection

/-- The selection of the key `TYPE`: the names of the descendants with their positions. -/
def typeSelection (typeName : String) (listOfChilds : List (TypeRecord TypeBase)) :
    TypeSelection where
  typeName := typeName ++ "_TYPE_selection"
  keys := listOfChilds.zipIdx.map fun child => (child.1.typeName, (child.2 : ℤ))

/-- The descendant that the default of the key `TYPE` names. -/
def getDefaultDescendant (typeDefault : Default) (listOfChilds : List (TypeRecord TypeBase)) :
    Option (TypeRecord TypeBase) :=
  listOfChilds.find? fun child => child.typeName = typeDefault.value

end Flow123d
