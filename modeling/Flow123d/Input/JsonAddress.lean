import Flow123d.Input.DerivedRecord
import Flow123d.Input.JsonPath

/-!
# Addresses of nodes

The string form of a path, and what `find_ref_node` makes of it. The components of an address
are read back as keys and indices.
-/

set_option autoImplicit false

namespace Flow123d

/-- The index is stored as an `int`; a negative one makes the level look like one with a key. -/
def PathItem.text : PathItem → String
  | .key name => name
  | .index number => if number % 2 ^ 32 < 2 ^ 31 then toString (number % 2 ^ 32) else ""

namespace JSONPlace

def items (place : JSONPlace) : List PathItem := place.levels.reverse.map Prod.fst

def output (place : JSONPlace) : String :=
  if place.level ≤ 0 then "/"
  else place.items.foldl (fun stream item => stream ++ ("/" ++ item.text)) ""

/-- The path at a place, when no reference has been followed. -/
def toPath (place : JSONPlace) : JSONPath where
  toJSONPlace := place
  previousReferences := []

/-- The place is found again by its string form. -/
def RoundTrip (start target : JSONPlace) : Prop :=
  ∃ path, start.toPath.findRefNode target.output = .ok path ∧ path.toJSONPlace = target

/-- The index that a component of an address stands for. -/
def numberOf (component : String) : Option ℕ :=
  if component = "" then none else some (digitsToNat component.toList)

/-- The address that ends in the component leads from the place that the rest of it reaches to the
item with this number, if there is one. -/
def ResolvesNumber (start reached : JSONPlace) (address component : String) : Prop :=
  ∀ place, (∃ path, start.toPath.findRefNode address = .ok path ∧ path.toJSONPlace = place) ↔
    ∃ n, numberOf component = some n ∧ reached.down (.index n) = some place

/-- Keys have a character that is not a digit, and indices are in the range of `int`. -/
def Readable : PathItem → Prop
  | .key key => ¬ key.toList.all Char.isDigit = true
  | .index index => index < 2 ^ 31

/-- The number is in the range of `unsigned int`, or neither it nor what is read is an index. -/
def NumberFits (component : String) (size : ℕ) : Prop :=
  (component ≠ "" ∧ digitsToNat component.toList < 2 ^ 32) ∨
    (size ≤ atoi component ∧ (component ≠ "" → size ≤ digitsToNat component.toList))

/-! ## Components -/

/-- How a component is read. -/
def readItem (component : String) : PathItem :=
  if component.toList.all Char.isDigit then .index (atoi component) else .key component

section Components

variable {place below start reached target : JSONPlace} {component : String}

theorem down_eq_none {item : PathItem} (missing : place.head.item? item = none) :
    place.down item = none := by
  unfold down
  split
  · rfl
  · rename_i node found
    rw [missing] at found
    cases found

theorem down_eq_some_iff {item : PathItem} : place.down item = some below ↔
    ∃ node, place.head.item? item = some node ∧ below.root = place.root ∧
      below.levels = (item, node) :: place.levels := by
  unfold down
  split
  · rename_i missing
    constructor
    · nofun
    · rintro ⟨node, found, _⟩
      rw [missing] at found
      cases found
  · rename_i node found
    constructor
    · intro same
      cases same
      exact ⟨node, found, rfl, rfl⟩
    · rintro ⟨other, found', root, levels⟩
      rw [found, Option.some_inj] at found'
      subst found'
      obtain ⟨belowRoot, belowLevels, descends⟩ := below
      cases root
      cases levels
      rfl

theorem followComponent_toOption {first : Bool} (later : ¬ (first = true ∧ component = ""))
    (notUp : component ≠ "..") :
    (followComponent first component place).toOption = place.down (readItem component) := by
  unfold followComponent readItem
  rw [if_neg later]
  by_cases digits : component.toList.all Char.isDigit = true
  · rw [if_pos digits, if_pos digits]
    cases head : place.head with
    | array items => cases place.down (.index (atoi component)) <;> rfl
    | _ => exact (down_eq_none (by rw [head]; rfl)).symm
  · rw [if_neg digits, if_neg digits, if_neg notUp]
    cases head : place.head with
    | obj members => cases place.down (.key component) <;> rfl
    | _ => exact (down_eq_none (by rw [head]; rfl)).symm

theorem followComponent_toOption_later (place : JSONPlace) (notUp : component ≠ "..") :
    (followComponent false component place).toOption = place.down (readItem component) :=
  followComponent_toOption nofun notUp

theorem items_of_down {item : PathItem} (stepped : place.down item = some below) :
    below.root = place.root ∧ below.items = place.items ++ [item] := by
  obtain ⟨node, _, root, levels⟩ := down_eq_some_iff.mp stepped
  refine ⟨root, ?_⟩
  rw [items, items, levels, List.reverse_cons, List.map_append]
  rfl

/-- The levels of a place follow from the items on the way. -/
theorem eq_of_items {place' : JSONPlace} (root : place.root = place'.root)
    (same : place.items = place'.items) : place = place' := by
  obtain ⟨root, levels, descends⟩ := place
  obtain ⟨root', levels', descends'⟩ := place'
  cases root
  have names : levels.map Prod.fst = levels'.map Prod.fst := by
    simpa [items, List.map_reverse] using same
  have levels_eq : levels = levels' := by
    clear same
    induction levels generalizing levels' with
    | nil =>
        cases levels' with
        | nil => rfl
        | cons level above => cases names
    | cons level above ih =>
        cases levels' with
        | nil => cases names
        | cons level' above' =>
            obtain ⟨item, node⟩ := level
            obtain ⟨item', node'⟩ := level'
            rw [List.map_cons, List.map_cons, List.cons.injEq] at names
            obtain ⟨rfl : item = item', rest⟩ := names
            obtain rfl := ih descends.2 above' descends'.2 rest
            have found := descends.1.symm.trans descends'.1
            cases found
            rfl
  subst levels_eq
  rfl

/-- Going down along the items. -/
def descend (place : JSONPlace) (items : List PathItem) : Option JSONPlace :=
  items.foldlM down place

theorem items_of_descend {items : List PathItem} (reaches : place.descend items = some below) :
    below.root = place.root ∧ below.items = place.items ++ items := by
  induction items generalizing place with
  | nil =>
      cases reaches
      exact ⟨rfl, (List.append_nil _).symm⟩
  | cons item rest ih =>
      rw [descend, List.foldlM_cons] at reaches
      obtain ⟨next, stepped, continued⟩ := Option.bind_eq_some_iff.mp reaches
      obtain ⟨root, step⟩ := items_of_down stepped
      obtain ⟨root', later⟩ := ih continued
      exact ⟨root'.trans root, by rw [later, step, List.append_assoc, List.singleton_append]⟩

theorem descend_items (place : JSONPlace) : place.goToRoot.descend place.items = some place := by
  obtain ⟨root, levels, descends⟩ := place
  induction levels with
  | nil => rfl
  | cons level above ih =>
      obtain ⟨item, node⟩ := level
      have outer := ih descends.2
      have step : (⟨root, above, descends.2⟩ : JSONPlace).down item =
          some ⟨root, (item, node) :: above, descends⟩ :=
        down_eq_some_iff.mpr ⟨node, descends.1, rfl, rfl⟩
      rw [descend] at outer ⊢
      rw [items, List.reverse_cons, List.map_append, List.foldlM_append]
      exact Option.bind_eq_some_iff.mpr ⟨_, outer, by simpa using step⟩

theorem followComponents_toOption {components : List String}
    (notUp : ∀ component ∈ components, component ≠ "..") :
    (followComponents false components place).toOption =
      place.descend (components.map readItem) := by
  induction components generalizing place with
  | nil => rfl
  | cons component rest ih =>
      have step := followComponent_toOption_later place (notUp component List.mem_cons_self)
      rw [followComponents, List.map_cons, descend, List.foldlM_cons, ← step]
      cases followComponent false component place with
      | error specification => rfl
      | ok next => exact ih fun other member => notUp other (List.mem_cons_of_mem _ member)

end Components

/-! ## Printed paths -/

theorem digits_toString (n : ℕ) : (toString n).toList.all Char.isDigit = true := by
  rw [List.all_eq_true]
  intro char member
  rw [Nat.toString_eq_repr, Nat.toList_repr] at member
  exact Nat.isDigit_of_mem_toDigits (by decide) le_rfl member

theorem digitsToNat_toString (n : ℕ) : digitsToNat (toString n).toList = n := by
  rw [Nat.toString_eq_repr, Nat.toList_repr]
  exact Nat.ofDigitChars_ten_toDigits

theorem atoi_toString {n : ℕ} (inRange : n < 2 ^ 31) : atoi (toString n) = n := by
  rw [atoi, digitsToNat_toString]
  omega

/-- What is printed is read back. -/
theorem readItem_text_iff (item : PathItem) : readItem item.text = item ↔ Readable item := by
  cases item with
  | key key =>
      unfold readItem PathItem.text Readable
      split_ifs with digits
      · exact iff_of_false nofun (not_not_intro digits)
      · exact iff_of_true rfl digits
  | index index =>
      unfold PathItem.text Readable
      by_cases positive : index % 2 ^ 32 < 2 ^ 31
      · simp only [positive, if_true]
        rw [readItem, if_pos (digits_toString _), atoi_toString positive, PathItem.index.injEq]
        constructor
        · intro same
          omega
        · exact fun inRange => Nat.mod_eq_of_lt (by omega)
      · simp only [positive, if_false]
        have empty : readItem "" = .index 0 := by decide
        rw [empty, PathItem.index.injEq]
        constructor
        · rintro rfl
          exact absurd (by decide) positive
        · intro inRange
          omega

/-- A key that a record type can have. -/
def AcceptedKeys (place : JSONPlace) : Prop :=
  ∀ key, PathItem.key key ∈ place.items → key = "TYPE" ∨ isValidIdentifier key = true

theorem isAlpha_of_isLower {char : Char} (lower : char.isLower = true) : char.isAlpha = true :=
  (Bool.or_eq_true _ _).mpr (.inr lower)

theorem text_chars {place : JSONPlace} (accepted : place.AcceptedKeys) {item : PathItem}
    (member : item ∈ place.items) :
    ∀ char ∈ item.text.toList, char.isAlphanum = true ∨ char = '_' := by
  intro char letter
  cases item with
  | key key =>
      obtain rfl | valid := accepted key member
      · have letters : "TYPE".toList.all Char.isAlphanum = true := by decide +kernel
        exact .inl (List.all_eq_true.mp letters char letter)
      · have kind := List.all_eq_true.mp valid char letter
        simp only [Bool.or_eq_true, decide_eq_true_iff] at kind
        rcases kind with (lower | digit) | underscore
        · exact .inl (by simp [Char.isAlphanum, isAlpha_of_isLower lower])
        · exact .inl (by simp [Char.isAlphanum, digit])
        · exact .inr underscore
  | index index =>
      unfold PathItem.text at letter
      simp only at letter
      split_ifs at letter
      · have digit := List.all_eq_true.mp (digits_toString _) char letter
        exact .inl (by simp [Char.isAlphanum, digit])
      · cases letter

theorem toList_foldl_text (items : List PathItem) (stream : String) :
    (items.foldl (fun stream item => stream ++ ("/" ++ item.text)) stream).toList =
      stream.toList ++ items.flatMap fun item => '/' :: item.text.toList := by
  induction items generalizing stream with
  | nil => simp
  | cons item rest ih =>
      rw [List.foldl_cons, ih, List.flatMap_cons]
      simp

theorem intercalate_flatMap (first : List Char) (items : List PathItem) :
    ['/'].intercalate (first :: items.map fun item => item.text.toList) =
      first ++ items.flatMap fun item => '/' :: item.text.toList := by
  induction items generalizing first with
  | nil => simp
  | cons item rest ih =>
      rw [List.map_cons, List.intercalate_cons_cons, ih, List.flatMap_cons]
      simp

theorem components_output {place : JSONPlace} (below : place.levels ≠ [])
    (accepted : place.AcceptedKeys) :
    components place.output = "" :: place.items.map PathItem.text := by
  have level : ¬ place.level ≤ 0 := by
    rw [JSONPlace.level, Nat.le_zero]
    exact mt List.length_eq_zero_iff.mp below
  have slashes : ∀ part ∈ [] :: place.items.map (fun item => item.text.toList), '/' ∉ part := by
    intro part member slash
    obtain rfl | listed := List.mem_cons.mp member
    · cases slash
    · obtain ⟨item, inItems, rfl⟩ := List.mem_map.mp listed
      exact absurd (text_chars accepted inItems '/' slash) (by decide)
  rw [components, output, if_neg level, toList_foldl_text]
  have joined := intercalate_flatMap [] place.items
  rw [List.nil_append] at joined
  rw [String.toList_empty, List.nil_append, ← joined,
    List.splitOn_intercalate '/' slashes (List.cons_ne_nil _ _), List.map_cons, List.map_map]
  congr 1
  apply List.map_congr_left
  intro item _
  exact String.ofList_toList

/-! ## Round trips -/

section Result

variable {place start reached target : JSONPlace} {address component : String}

/-- No reference has been followed, so that the address is. -/
theorem findRefNode_toPath :
    (∃ path, start.toPath.findRefNode address = .ok path ∧ path.toJSONPlace = place) ↔
      (followComponents true (components address) start).toOption = some place := by
  have new : address ∉ start.toPath.previousReferences := List.not_mem_nil
  rw [JSONPath.findRefNode, if_neg new, JSONPath.followReference]
  change _ ↔ (start.follow address).toOption = some place
  have same : start.toPath.toJSONPlace.follow address = start.follow address := rfl
  rw [same]
  cases start.follow address with
  | error failure => exact iff_of_false (fun ⟨_, found, _⟩ => nomatch found) nofun
  | ok found =>
      constructor
      · rintro ⟨path, same, rfl⟩
        cases same
        rfl
      · intro same
        cases same
        exact ⟨_, rfl, rfl⟩

theorem roundTrip_iff (sameRoot : target.root = start.root) (accepted : target.AcceptedKeys) :
    RoundTrip start target ↔ target.levels ≠ [] ∧ ∀ item ∈ target.items, Readable item := by
  unfold RoundTrip
  rw [findRefNode_toPath]
  by_cases below : target.levels = []
  · -- The second component of the address "/" is empty, and an item is looked up.
    refine iff_of_false ?_ fun condition => condition.1 below
    have level : target.level ≤ 0 := by rw [JSONPlace.level, below]; rfl
    have parts : components "/" = ["", ""] := by decide
    rw [output, if_pos level, parts]
    change (followComponents false [""] start.goToRoot).toOption ≠ some target
    rw [followComponents_toOption (by simp)]
    intro reaches
    have items := (items_of_descend reaches).2
    rw [JSONPlace.items, below] at items
    cases items
  · have notUp : ∀ component ∈ target.items.map PathItem.text, component ≠ ".." := by
      rintro component member rfl
      obtain ⟨item, inItems, dots⟩ := List.mem_map.mp member
      have letters := text_chars accepted inItems '.' (by rw [dots]; decide)
      exact absurd letters (by decide)
    rw [components_output below accepted]
    change (followComponents false (target.items.map PathItem.text) start.goToRoot).toOption =
      some target ↔ _
    rw [followComponents_toOption notUp, List.map_map]
    have root : target.goToRoot = start.goToRoot := eq_of_items sameRoot rfl
    have back : (∀ item ∈ target.items, Readable item) ↔
        target.items.map (readItem ∘ PathItem.text) = target.items := by
      have identity := List.map_inj_left (l := target.items) (f := readItem ∘ PathItem.text)
        (g := id)
      rw [List.map_id] at identity
      rw [identity]
      exact forall₂_congr fun item _ => (readItem_text_iff item).symm
    rw [back, and_iff_right below]
    constructor
    · intro reaches
      have items := (items_of_descend reaches).2
      exact items.symm
    · intro same
      rw [same, ← root]
      exact descend_items target

/-! ## Numbers -/

theorem followComponents_concat {first : Bool} {before : List String}
    (followed : followComponents first before start = .ok reached) :
    (followComponents first (before ++ [component]) start).toOption =
      (followComponent (first && before.isEmpty) component reached).toOption := by
  induction before generalizing first start with
  | nil =>
      cases followed
      rw [List.nil_append, followComponents, List.isEmpty_nil, Bool.and_true]
      cases followComponent first component reached <;> rfl
  | cons part rest ih =>
      rw [followComponents] at followed
      rw [List.cons_append, followComponents, List.isEmpty_cons, Bool.and_false]
      cases step : followComponent first part start with
      | error specification =>
          rw [step] at followed
          cases followed
      | ok next =>
          rw [step] at followed
          exact ih followed

theorem exists_down_index {items : List Node} (head : place.head = .array items) (index : ℕ) :
    (∃ below, place.down (.index index) = some below) ↔ index < items.length := by
  constructor
  · rintro ⟨below, stepped⟩
    obtain ⟨node, found, _⟩ := down_eq_some_iff.mp stepped
    rw [head] at found
    exact (List.getElem?_eq_some_iff.mp found).1
  · intro inside
    have found : place.head.item? (.index index) = some items[index] := by
      rw [head]
      exact List.getElem?_eq_getElem inside
    exact ⟨⟨place.root, (_, _) :: place.levels, found, place.descends⟩,
      down_eq_some_iff.mpr ⟨_, found, rfl, rfl⟩⟩

theorem down_injective {item item' : PathItem} (first : place.down item = some reached)
    (second : place.down item' = some reached) : item = item' := by
  obtain ⟨_, _, _, levels⟩ := down_eq_some_iff.mp first
  obtain ⟨_, _, _, levels'⟩ := down_eq_some_iff.mp second
  rw [levels, List.cons.injEq, Prod.mk.injEq] at levels'
  exact levels'.1.1

theorem atoi_eq {component : String} (inRange : digitsToNat component.toList < 2 ^ 32) :
    atoi component = digitsToNat component.toList := by
  rw [atoi]
  omega

theorem resolvesNumber_iff {before : List String} {items : List Node}
    (parts : components address = before ++ [component])
    (followed : followComponents true before start = .ok reached)
    (head : reached.head = .array items) (numeric : component.toList.all Char.isDigit = true)
    (later : before ≠ [] ∨ component ≠ "") :
    ResolvesNumber start reached address component ↔ NumberFits component items.length := by
  have notUp : component ≠ ".." := by
    rintro rfl
    exact absurd numeric (by decide)
  have notRoot : ¬ ((true && before.isEmpty) = true ∧ component = "") := by
    rintro ⟨empty, none⟩
    obtain filled | filled := later
    · exact filled (List.isEmpty_iff.mp (by simpa using empty))
    · exact filled none
  have outcome : ∀ place,
      (∃ path, start.toPath.findRefNode address = .ok path ∧ path.toJSONPlace = place) ↔
        reached.down (.index (atoi component)) = some place := by
    intro place
    rw [findRefNode_toPath, parts, followComponents_concat followed,
      followComponent_toOption notRoot notUp, readItem, if_pos numeric]
  unfold ResolvesNumber
  simp only [outcome]
  constructor
  · intro law
    by_cases inRange : component ≠ "" ∧ digitsToNat component.toList < 2 ^ 32
    · exact .inl inRange
    · refine .inr ⟨?_, ?_⟩
      · by_contra inside
        obtain ⟨place, stepped⟩ := (exists_down_index head _).mpr (not_le.mp inside)
        obtain ⟨n, number, stepped'⟩ := (law place).mp stepped
        have same := down_injective stepped stepped'
        rw [PathItem.index.injEq] at same
        unfold numberOf at number
        split_ifs at number with empty
        cases number
        refine inRange ⟨empty, ?_⟩
        rw [← same, atoi]
        exact Nat.mod_lt _ (by decide)
      · intro filled
        by_contra inside
        obtain ⟨place, stepped⟩ := (exists_down_index head _).mpr (not_le.mp inside)
        have stepped' := (law place).mpr ⟨_, if_neg filled, stepped⟩
        have same := down_injective stepped stepped'
        rw [PathItem.index.injEq] at same
        refine inRange ⟨filled, ?_⟩
        rw [same, atoi]
        exact Nat.mod_lt _ (by decide)
  · rintro (⟨filled, inRange⟩ | ⟨outside, outside'⟩) place
    · rw [atoi_eq inRange, numberOf, if_neg filled]
      simp
    · refine iff_of_false ?_ ?_
      · intro stepped
        exact absurd ((exists_down_index head _).mp ⟨_, stepped⟩) (not_lt.mpr outside)
      · rintro ⟨n, number, stepped⟩
        unfold numberOf at number
        split_ifs at number with empty
        cases number
        exact absurd ((exists_down_index head _).mp ⟨_, stepped⟩) (not_lt.mpr (outside' empty))

/-- A node is found by its string form if and only if it is not the root, its keys are not all
digits and its indices fit. A number gets the item with this number if and only if it fits. -/
theorem findRefNode_iff (sameRoot : target.root = start.root) (accepted : target.AcceptedKeys) :
    (RoundTrip start target ↔ target.levels ≠ [] ∧ ∀ item ∈ target.items, Readable item) ∧
      ∀ (address component : String) (before : List String) (reached : JSONPlace)
        (items : List Node), components address = before ++ [component] →
        followComponents true before start = .ok reached → reached.head = .array items →
        component.toList.all Char.isDigit = true → before ≠ [] ∨ component ≠ "" →
        (ResolvesNumber start reached address component ↔ NumberFits component items.length) :=
  ⟨roundTrip_iff sameRoot accepted, fun _ _ _ _ _ => resolvesNumber_iff⟩

end Result

/-- The document `{"a": [null, true]}`. -/
def sample : Node := .obj [("a", .array [.null, .bool true])]

def sampleRoot : JSONPlace := ⟨sample, [], trivial⟩

def sampleArray : JSONPlace :=
  ⟨sample, [(.key "a", .array [.null, .bool true])], rfl, trivial⟩

def sampleItem : JSONPlace :=
  ⟨sample, [(.index 1, .bool true), (.key "a", .array [.null, .bool true])], rfl, rfl, trivial⟩

theorem findRefNode_iff_sample :
    RoundTrip sampleRoot sampleItem ∧ ResolvesNumber sampleRoot sampleArray "/a/1" "1" := by
  have accepted : sampleItem.AcceptedKeys := by
    intro key member
    have listed : sampleItem.items = [.key "a", .index 1] := rfl
    rw [listed] at member
    obtain rfl : key = "a" := by simpa using member
    exact .inr (by decide)
  have both := @findRefNode_iff sampleRoot sampleItem rfl accepted
  refine ⟨both.1.mpr ⟨List.cons_ne_nil _ _, ?_⟩, ?_⟩
  · intro item member
    have listed : sampleItem.items = [.key "a", .index 1] := rfl
    rw [listed] at member
    obtain rfl | rfl : item = .key "a" ∨ item = .index 1 := by simpa using member
    · exact show ¬ ("a".toList.all Char.isDigit = true) by decide
    · exact show 1 < 2 ^ 31 by decide
  · refine (both.2 "/a/1" "1" ["", "a"] sampleArray [.null, .bool true] (by decide) rfl rfl
      (by decide) (.inl (List.cons_ne_nil _ _))).mpr (.inl ⟨by decide, by decide⟩)

theorem not_always_roundTrip : ¬ RoundTrip sampleRoot sampleRoot := by
  rw [roundTrip_iff rfl (fun _ member => absurd member List.not_mem_nil)]
  exact fun condition => condition.1 rfl

end JSONPlace

end Flow123d
