import Flow123d.Input.Text

/-!
# Paths in a JSON document

The position of the reader in the document: the nodes from the root down to the head, and
the references that have been followed on the way. A reference is a record with the one key
`REF`; its address is absolute or relative to the reference.
-/

set_option autoImplicit false

namespace Flow123d

/-- A parsed value. The members of a record have different keys. -/
inductive Node where
  | obj (members : List (String × Node))
  | array (items : List Node)
  | str (value : String)
  | bool (value : Bool)
  | int (value : ℤ)
  | real (value : ℚ)
  | null

/-- One level of a path. -/
inductive PathItem where
  | index (index : ℕ)
  | key (key : String)
  deriving DecidableEq

namespace Node

/-- `json_type_names`. -/
def typeName : Node → String
  | .obj _ => "JSON object"
  | .array _ => "JSON array"
  | .str _ => "JSON string"
  | .bool _ => "JSON bool"
  | .int _ => "JSON int"
  | .real _ => "JSON real"
  | .null => "JSON null"

def item? (node : Node) : PathItem → Option Node
  | .index index =>
      match node with
      | .array items => items[index]?
      | _ => none
  | .key key =>
      match node with
      | .obj members => members.lookup key
      | _ => none

end Node

/-- The last node of the levels below the root, innermost first. -/
def headOf (root : Node) : List (PathItem × Node) → Node
  | [] => root
  | (_, node) :: _ => node

/-- Each level is an item of the level above it. -/
def Descends (root : Node) : List (PathItem × Node) → Prop
  | [] => True
  | (item, node) :: above => (headOf root above).item? item = some node ∧ Descends root above

/-- `path_` and `nodes_`. -/
structure JSONPlace where
  root : Node
  levels : List (PathItem × Node)
  descends : Descends root levels

namespace JSONPlace

def head (place : JSONPlace) : Node := headOf place.root place.levels

def level (place : JSONPlace) : ℕ := place.levels.length

/-- `NULL` if there is no such item. -/
def down (place : JSONPlace) (item : PathItem) : Option JSONPlace :=
  match found : place.head.item? item with
  | none => none
  | some node => some
      { root := place.root
        levels := (item, node) :: place.levels
        descends := ⟨found, place.descends⟩ }

/-- At the root it stays. -/
def up (place : JSONPlace) : JSONPlace where
  root := place.root
  levels := place.levels.tail
  descends := by
    obtain ⟨root, levels, descends⟩ := place
    cases levels with
    | nil => trivial
    | cons level above => exact descends.2

def goToRoot (place : JSONPlace) : JSONPlace where
  root := place.root
  levels := []
  descends := trivial

/-! ## Addresses -/

/-- The parts of an address between the slashes. -/
def components (refAddress : String) : List String :=
  (refAddress.toList.splitOn '/').map String.ofList

/-- One turn of the loop in `find_ref_node`, or why the path can not be followed. -/
def followComponent (first : Bool) (component : String) (place : JSONPlace) :
    Except String JSONPlace :=
  if first = true ∧ component = "" then .ok place.goToRoot
  else if component.toList.all Char.isDigit then
    -- the empty component counts as a number
    match place.head with
    | .array _ =>
        match place.down (.index (atoi component)) with
        | none => .error "index out of size of Array"
        | some below => .ok below
    | _ => .error "there should be Array"
  else if component = ".." then
    if place.level ≤ 0 then .error "can not go up from root" else .ok place.up
  else
    match place.head with
    | .obj _ =>
        match place.down (.key component) with
        | none => .error ("key '" ++ component ++ "' not found")
        | some below => .ok below
    | _ => .error "there should be Record"

/-- An error comes with the place that was reached. -/
def followComponents : Bool → List String → JSONPlace → Except (String × JSONPlace) JSONPlace
  | _, [], place => .ok place
  | first, component :: rest, place =>
      match followComponent first component place with
      | .error specification => .error (specification, place)
      | .ok next => followComponents false rest next

def follow (refAddress : String) (place : JSONPlace) : Except (String × JSONPlace) JSONPlace :=
  followComponents true (components refAddress) place

end JSONPlace

structure JSONPath extends JSONPlace where
  previousReferences : List String

inductive PathError where
  | refOfWrongType (errorAddress : JSONPath)
  | referenceNotFound (refAddress errorAddress : JSONPath) (refStr specification : String)

namespace JSONPath

/-- The path at the root of the document. -/
def ofRoot (root : Node) : JSONPath where
  root := root
  levels := []
  descends := trivial
  previousReferences := []

def down (path : JSONPath) (item : PathItem) : Option JSONPath :=
  (path.toJSONPlace.down item).map fun place =>
    { toJSONPlace := place, previousReferences := path.previousReferences }

def getRefFromHead (path : JSONPath) : Except PathError (Option String) :=
  match path.head with
  | .obj [(key, value)] =>
      if key = "REF" then
        match value with
        | .str refAddress => .ok (some refAddress)
        | _ => .error (.refOfWrongType path)
      else .ok none
  | _ => .ok none

/-- The reference is added to those that have been followed. -/
def followReference (path : JSONPath) (refAddress : String) : Except PathError JSONPath :=
  let previousReferences := refAddress :: path.previousReferences
  match path.toJSONPlace.follow refAddress with
  | .error (specification, place) => .error
      (.referenceNotFound path
        { toJSONPlace := place, previousReferences := previousReferences }
        refAddress specification)
  | .ok place => .ok { toJSONPlace := place, previousReferences := previousReferences }

def findRefNode (path : JSONPath) (refAddress : String) : Except PathError JSONPath :=
  if refAddress ∈ path.previousReferences then
    .error (.referenceNotFound path path refAddress "cannot follow reference")
  else path.followReference refAddress

end JSONPath

end Flow123d
