import Flow123d.Library.Chain
import Flow123d.Input.JsonTermination

/-!
# Chains of references

The reader recognises a cycle of references by a string that it has followed before. It is
compared with a reader that follows every reference whose chain does not return.
-/

set_option autoImplicit false

namespace Flow123d

open Flow123d.Library

namespace JSONPlace

/-- The address, if the head is a reference. -/
def reference? (place : JSONPlace) : Option String :=
  match place.head with
  | .obj [(key, .str refAddress)] => if key = "REF" then some refAddress else none
  | _ => none

/-- Where the reference at the head leads, if it can be followed. -/
def leadsTo (place : JSONPlace) : Option JSONPlace :=
  place.reference?.bind fun refAddress => (place.follow refAddress).toOption

/-- The chain of references from the place returns to a place on it. -/
def Returns (place : JSONPlace) : Prop := ChainReturns leadsTo place

theorem followComponent_ne_alarm {first : Bool} {component : String} {place : JSONPlace} :
    followComponent first component place ≠ .error "cannot follow reference" := by
  unfold followComponent
  intro failed
  split at failed
  · cases failed
  split at failed
  · split at failed
    · split at failed
      · exact absurd (Except.error.inj failed) (by decide)
      · cases failed
    · exact absurd (Except.error.inj failed) (by decide)
  split at failed
  · split at failed
    · exact absurd (Except.error.inj failed) (by decide)
    · cases failed
  · split at failed
    · split at failed
      · have same := congrArg (fun text => text.toList.head?) (Except.error.inj failed)
        simp [String.toList_append] at same
      · cases failed
    · exact absurd (Except.error.inj failed) (by decide)

theorem followComponents_ne_alarm {first : Bool} {components : List String}
    {place reached : JSONPlace} :
    followComponents first components place ≠ .error ("cannot follow reference", reached) := by
  induction components generalizing first place with
  | nil => exact nofun
  | cons component rest ih =>
      rw [followComponents]
      intro failed
      split at failed
      case h_1 specification one =>
        cases failed
        exact followComponent_ne_alarm one
      case h_2 => exact ih failed

end JSONPlace

namespace JSONPath

theorem reference_of_getRefFromHead {path : JSONPath} {refAddress : String}
    (reference : path.getRefFromHead = .ok (some refAddress)) :
    path.toJSONPlace.reference? = some refAddress := by
  unfold JSONPlace.reference?
  rw [getRefFromHead_head reference]
  rfl

theorem getRefFromHead_of_reference {path : JSONPath} {refAddress : String}
    (reference : path.toJSONPlace.reference? = some refAddress) :
    path.getRefFromHead = .ok (some refAddress) := by
  unfold JSONPlace.reference? at reference
  split at reference
  case h_1 key address isHead =>
    split at reference
    case isTrue named =>
      cases reference
      unfold getRefFromHead
      rw [isHead, named]
      rfl
    case isFalse => cases reference
  case h_2 => cases reference

theorem getRefFromHead_error {path : JSONPath} {error : PathError}
    (failed : path.getRefFromHead = .error error) : error = .refOfWrongType path := by
  unfold getRefFromHead at failed
  split at failed
  · split at failed
    · split at failed
      · cases failed
      · cases failed
        rfl
    · cases failed
  · cases failed

theorem leadsTo_of_followReference {path next : JSONPath} {refAddress : String}
    (reference : path.getRefFromHead = .ok (some refAddress))
    (followed : path.followReference refAddress = .ok next) :
    path.toJSONPlace.leadsTo = some next.toJSONPlace := by
  rw [JSONPlace.leadsTo, reference_of_getRefFromHead reference, Option.bind_some,
    (followReference_spec followed).1]
  rfl

theorem followReference_ne_alarm {path refPath errorPath : JSONPath}
    {refAddress refStr : String} : path.followReference refAddress ≠
      .error (.referenceNotFound refPath errorPath refStr "cannot follow reference") := by
  unfold followReference
  intro failed
  split at failed
  case h_1 specification place one =>
    cases failed
    exact JSONPlace.followComponents_ne_alarm one
  case h_2 => cases failed

end JSONPath

namespace JSONToStorage

/-- The report that a reference can not be followed. -/
def alarm (path errorPath : JSONPath) (refAddress : String) : ReadError :=
  .path (.referenceNotFound path errorPath refAddress "cannot follow reference")

open Classical in
/-- The reader that follows the references until their chain returns. -/
noncomputable def readFollowing : Procedure (JSONPath × TypeBase) Storage ReadError
  | (path, type) =>
      match path.getRefFromHead with
      | .error error => .throw (.path error)
      | .ok (some refAddress) =>
          if path.toJSONPlace.Returns then .throw (alarm path path refAddress)
          else makeStorageReference type (path.followReference refAddress)
      | .ok none => makeStorageValue path type

/-- The reader ends, and reports a reference that can not be followed only where the chain of
references returns. -/
def Sound (type : TypeBase) (root : Node) : Prop :=
  ∃ result, makeStorage.Ends (JSONPath.ofRoot root, type) result ∧
    ∀ path errorPath refAddress, result = .error (alarm path errorPath refAddress) →
      path.toJSONPlace.Returns

/-- On the way to a reference whose chain ends, through references and values, its string has
not been followed. -/
def StringsDiffer (type : TypeBase) (root : Node) : Prop :=
  ∀ path typeThere refAddress,
    readFollowing.Reaches (JSONPath.ofRoot root, type) (path, typeThere) →
    path.toJSONPlace.reference? = some refAddress → refAddress ∈ path.previousReferences →
      path.toJSONPlace.Returns

/-- An alarm where the chain ends. -/
def FalseAlarm (error : ReadError) : Prop :=
  ∃ path errorPath refAddress, error = alarm path errorPath refAddress ∧
    ¬ path.toJSONPlace.Returns

/-! ## The two readers at one call -/

variable {path : JSONPath} {type : TypeBase} {refAddress : String}

theorem readFollowing_returns (reference : path.getRefFromHead = .ok (some refAddress))
    (returns : path.toJSONPlace.Returns) :
    readFollowing (path, type) = .throw (alarm path path refAddress) := by
  rw [readFollowing, reference]
  exact if_pos returns

theorem makeStorage_reference (reference : path.getRefFromHead = .ok (some refAddress)) :
    makeStorage (path, type) = makeStorageReference type (path.findRefNode refAddress) := by
  rw [makeStorage, reference]

theorem makeStorage_followed (reference : path.getRefFromHead = .ok (some refAddress))
    (before : refAddress ∈ path.previousReferences) :
    makeStorage (path, type) = .throw (alarm path path refAddress) := by
  rw [makeStorage_reference reference, JSONPath.findRefNode_of_mem before]
  rfl

theorem makeStorage_new (reference : path.getRefFromHead = .ok (some refAddress))
    (new : refAddress ∉ path.previousReferences) :
    makeStorage (path, type) =
      makeStorageReference type (path.followReference refAddress) := by
  rw [makeStorage_reference reference, JSONPath.findRefNode_of_notMem new]

/-- At every other call they are the same. -/
theorem readFollowing_eq_makeStorage
    (ends : ∀ refAddress, path.getRefFromHead = .ok (some refAddress) →
      ¬ path.toJSONPlace.Returns ∧ refAddress ∉ path.previousReferences) :
    readFollowing (path, type) = makeStorage (path, type) := by
  cases reference : path.getRefFromHead with
  | error error => rw [readFollowing, makeStorage, reference]
  | ok address =>
      cases address with
      | none => rw [readFollowing, makeStorage, reference]
      | some refAddress =>
          obtain ⟨ended, new⟩ := ends refAddress reference
          rw [makeStorage_new reference new, readFollowing, reference]
          exact if_neg ended

/-- A call is one of these three. -/
theorem call_cases (path : JSONPath) (type : TypeBase) :
    (∃ refAddress, path.getRefFromHead = .ok (some refAddress) ∧ path.toJSONPlace.Returns) ∨
    (∃ refAddress, path.getRefFromHead = .ok (some refAddress) ∧
      ¬ path.toJSONPlace.Returns ∧ refAddress ∈ path.previousReferences) ∨
    readFollowing (path, type) = makeStorage (path, type) := by
  by_cases same : ∀ refAddress, path.getRefFromHead = .ok (some refAddress) →
      ¬ path.toJSONPlace.Returns ∧ refAddress ∉ path.previousReferences
  · exact .inr (.inr (readFollowing_eq_makeStorage same))
  · push Not at same
    obtain ⟨refAddress, reference, followed⟩ := same
    by_cases returns : path.toJSONPlace.Returns
    · exact .inl ⟨refAddress, reference, returns⟩
    · exact .inr (.inl ⟨refAddress, reference, returns, followed returns⟩)

theorem falseAlarm_of_followed (reference : path.getRefFromHead = .ok (some refAddress))
    (ended : ¬ path.toJSONPlace.Returns) (before : refAddress ∈ path.previousReferences) :
    ∃ error, FalseAlarm error ∧ makeStorage.Ends (path, type) (.error error) := by
  refine ⟨_, ⟨path, path, refAddress, rfl, ended⟩, ?_⟩
  rw [Procedure.ends_iff_yields, makeStorage_followed reference before]
  exact Procedure.yields_throw _

/-- From a reference whose chain returns, only the next reference is read. -/
theorem makes_of_returns {call : JSONPath × TypeBase}
    (reference : path.getRefFromHead = .ok (some refAddress))
    (returns : path.toJSONPlace.Returns)
    (makes : makeStorage.Makes (makeStorage (path, type)) call) :
    call.1.toJSONPlace.Returns := by
  by_cases before : refAddress ∈ path.previousReferences
  · rw [makeStorage_followed reference before] at makes
    cases makes
  · rw [makeStorage_new reference before] at makes
    cases followed : path.followReference refAddress with
    | error error =>
        rw [followed] at makes
        cases makes
    | ok next =>
        rw [followed] at makes
        rcases makes with rfl | ⟨reply, _, later⟩
        · exact returns.of_next (JSONPath.leadsTo_of_followReference reference followed)
        · cases later

theorem reference_of_returns (returns : path.toJSONPlace.Returns) :
    ∃ refAddress, path.getRefFromHead = .ok (some refAddress) := by
  obtain ⟨next, leads⟩ := returns.exists_next
  obtain ⟨refAddress, reference, _⟩ := Option.bind_eq_some_iff.mp leads
  exact ⟨refAddress, JSONPath.getRefFromHead_of_reference reference⟩

/-! ## Replies -/

/-- Where the chain returns, nothing is stored. -/
theorem exec_ne_ok_of_returns {depth : ℕ} {value : Storage}
    (returns : path.toJSONPlace.Returns) :
    makeStorage.exec depth (path, type) ≠ some (.ok value) := by
  induction depth generalizing path with
  | zero => exact nofun
  | succ depth ih =>
      intro ran
      obtain ⟨refAddress, reference⟩ := reference_of_returns returns
      rw [Procedure.exec] at ran
      by_cases before : refAddress ∈ path.previousReferences
      · rw [makeStorage_followed reference before] at ran
        cases ran
      · rw [makeStorage_new reference before] at ran
        cases followed : path.followReference refAddress with
        | error error =>
            rw [followed] at ran
            cases ran
        | ok next =>
            rw [followed, makeStorageReference, Body.run] at ran
            have later := ih (returns.of_next
              (JSONPath.leadsTo_of_followReference reference followed))
            split at ran
            · cases ran
            · cases ran
            case h_3 reply replied =>
              cases ran
              exact later replied

theorem readFollowing_of_makeStorage {depth : ℕ} {call : JSONPath × TypeBase} {value : Storage}
    (ran : makeStorage.exec depth call = some (.ok value)) :
    readFollowing.Ends call (.ok value) := by
  induction depth generalizing call value with
  | zero => cases ran
  | succ depth ih =>
      obtain ⟨path, type⟩ := call
      rcases call_cases path type with ⟨_, _, returns⟩ | ⟨_, reference, _, before⟩ | same
      · exact absurd ran (exec_ne_ok_of_returns returns)
      · rw [Procedure.exec, makeStorage_followed reference before] at ran
        cases ran
      · rw [Procedure.ends_iff_yields, same]
        rcases Procedure.yields_of_replies (fun _ => False)
          (fun argument reply replied => .inl (ih replied)) ran with yielded | ⟨_, never, _⟩
        · exact yielded
        · cases never

theorem makeStorage_of_readFollowing {depth : ℕ} {call : JSONPath × TypeBase} {value : Storage}
    (ran : readFollowing.exec depth call = some (.ok value)) :
    makeStorage.Ends call (.ok value) ∨
      ∃ error, FalseAlarm error ∧ makeStorage.Ends call (.error error) := by
  induction depth generalizing call value with
  | zero => cases ran
  | succ depth ih =>
      obtain ⟨path, type⟩ := call
      rcases call_cases path type with
        ⟨_, reference, returns⟩ | ⟨_, reference, ended, before⟩ | same
      · rw [Procedure.exec, readFollowing_returns reference returns] at ran
        cases ran
      · exact .inr (falseAlarm_of_followed reference ended before)
      · rw [Procedure.exec, same] at ran
        rcases Procedure.yields_of_replies FalseAlarm
          (fun argument reply replied => ih replied) ran with
          yielded | ⟨error, isFalse, failed⟩
        · exact .inl (Procedure.ends_iff_yields.mpr yielded)
        · exact .inr ⟨error, isFalse, Procedure.ends_iff_yields.mpr failed⟩

/-! ## Calls that are reached -/

variable {root : Node}

theorem reaches_of_makeStorage {start call : JSONPath × TypeBase}
    (reached : makeStorage.Reaches start call) :
    readFollowing.Reaches start call ∨ call.1.toJSONPlace.Returns := by
  induction reached with
  | refl => exact .inl .refl
  | @tail middle call _ makes ih =>
      obtain ⟨path, type⟩ := middle
      rcases ih with reached | returns
      · rcases call_cases path type with
          ⟨_, reference, returns⟩ | ⟨_, reference, _, before⟩ | same
        · exact .inr (makes_of_returns reference returns makes)
        · rw [makeStorage_followed reference before] at makes
          cases makes
        · rw [← same] at makes
          rcases Procedure.makes_of_replies (fun _ => False)
            (fun argument reply ⟨_, replied⟩ => .inl (readFollowing_of_makeStorage replied))
            makes with made | ⟨_, never, _⟩
          · exact .inl (reached.tail made)
          · cases never
      · obtain ⟨refAddress, reference⟩ := reference_of_returns returns
        exact .inr (makes_of_returns reference returns makes)

theorem reaches_of_readFollowing {start call : JSONPath × TypeBase}
    (reached : readFollowing.Reaches start call) :
    makeStorage.Reaches start call ∨
      ∃ error, FalseAlarm error ∧ makeStorage.Ends start (.error error) := by
  induction reached with
  | refl => exact .inl .refl
  | @tail middle call _ makes ih =>
      obtain ⟨path, type⟩ := middle
      rcases ih with reached | failed
      · rcases call_cases path type with
          ⟨_, reference, returns⟩ | ⟨_, reference, ended, before⟩ | same
        · rw [readFollowing_returns reference returns] at makes
          cases makes
        · obtain ⟨error, isFalse, failed⟩ := falseAlarm_of_followed reference ended before
          exact .inr ⟨error, isFalse, Procedure.ends_error_of_reaches reached failed⟩
        · rw [same] at makes
          rcases Procedure.makes_of_replies FalseAlarm
            (fun argument reply ⟨_, replied⟩ => makeStorage_of_readFollowing replied)
            makes with made | ⟨error, isFalse, failed⟩
          · exact .inl (reached.tail made)
          · exact .inr ⟨error, isFalse, Procedure.ends_error_of_reaches reached
              (Procedure.ends_iff_yields.mpr failed)⟩
      · exact .inr failed

/-- An alarm is thrown at a reference whose string has been followed. -/
theorem followed_of_throws {errorPath other : JSONPath}
    (throws : makeStorage.Throws (makeStorage (path, type)) (alarm other errorPath refAddress)) :
    other = path ∧ path.toJSONPlace.reference? = some refAddress ∧
      refAddress ∈ path.previousReferences := by
  rw [makeStorage] at throws
  split at throws
  case h_1 error wrong =>
    cases throws
    cases JSONPath.getRefFromHead_error wrong
  case h_2 address reference =>
    by_cases before : address ∈ path.previousReferences
    · rw [JSONPath.findRefNode_of_mem before] at throws
      cases throws
      exact ⟨rfl, JSONPath.reference_of_getRefFromHead reference, before⟩
    · rw [JSONPath.findRefNode_of_notMem before] at throws
      cases followed : path.followReference address with
      | error error =>
          rw [followed] at throws
          cases throws
          exact absurd followed JSONPath.followReference_ne_alarm
      | ok next =>
          rw [followed] at throws
          obtain ⟨_, _, later⟩ := throws
          cases later
  case h_3 =>
    exact absurd rfl (throws.allowed (makeStorageValue_within path type) _)

/-- For every type and every document. -/
theorem sound_iff (type : TypeBase) (root : Node) : Sound type root ↔ StringsDiffer type root := by
  constructor
  · rintro ⟨result, ends, real⟩ path typeThere refAddress reached reference before
    by_contra ended
    have failed : ∃ error, FalseAlarm error ∧
        makeStorage.Ends (JSONPath.ofRoot root, type) (.error error) := by
      rcases reaches_of_readFollowing reached with made | failed
      · obtain ⟨error, isFalse, failed⟩ := falseAlarm_of_followed
          (JSONPath.getRefFromHead_of_reference reference) ended before
        exact ⟨error, isFalse, Procedure.ends_error_of_reaches made failed⟩
      · exact failed
    obtain ⟨error, ⟨other, errorPath, address, same, notReturning⟩, failed⟩ := failed
    refine notReturning (real other errorPath address ?_)
    rw [ends.unique failed, same]
  · intro differ
    obtain ⟨result, ends⟩ := makeStorage_ends (JSONPath.ofRoot root) type
    refine ⟨result, ends, ?_⟩
    rintro path errorPath refAddress rfl
    obtain ⟨⟨other, typeThere⟩, reached, throws⟩ := Procedure.exists_throws_of_ends_error ends
    obtain ⟨rfl, reference, before⟩ := followed_of_throws throws
    rcases reaches_of_makeStorage reached with followed | returns
    · exact differ path typeThere refAddress followed reference before
    · exact returns

/-! ## A chain with one relative address at two places -/

/-- `/p/q` leads to `/p/x`, then to `/r/y` and to the number at `/r/x`. -/
def twoPlaces : Node :=
  .obj [
    ("p", .obj [("q", .obj [("REF", .str "../x")]), ("x", .obj [("REF", .str "/r/y")])]),
    ("r", .obj [("x", .int 5), ("y", .obj [("REF", .str "../x")])])]

def twoPlacesType : TypeBase :=
  .record ⟨"Root", [⟨"p", .record ⟨"P", [⟨"q", .integer 0 10, ⟨"", .noDefaultObligatoryType⟩⟩],
    none⟩, ⟨"", .noDefaultObligatoryType⟩⟩], none⟩

/-- The path `/r/y`, reached by two references. -/
def secondPlace : JSONPath where
  root := twoPlaces
  levels :=
    [(.key "y", .obj [("REF", .str "../x")]),
      (.key "r", .obj [("x", .int 5), ("y", .obj [("REF", .str "../x")])])]
  descends := ⟨rfl, rfl, trivial⟩
  previousReferences := ["/r/y", "../x"]

theorem secondPlace_ends : chain JSONPlace.leadsTo secondPlace.toJSONPlace 2 = none := by
  rfl

theorem not_always_sound : ¬ ∀ type root, Sound type root := by
  intro always
  obtain ⟨result, ends, real⟩ := always twoPlacesType twoPlaces
  have alarmed : makeStorage.Ends (JSONPath.ofRoot twoPlaces, twoPlacesType)
      (.error (alarm secondPlace secondPlace "../x")) := by
    refine ⟨6, ?_⟩
    rfl
  have returns := real secondPlace secondPlace "../x" (ends.unique alarmed)
  exact returns.chain_ne_none 2 secondPlace_ends

end JSONToStorage

end Flow123d
