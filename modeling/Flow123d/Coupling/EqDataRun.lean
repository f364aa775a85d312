import Flow123d.Coupling.EqDataProperties

/-!
# The input that an equation uses

Over any calls with times that do not decrease, a field uses on a region what the last record
says whose time has come, or its default value.
-/

set_option autoImplicit false

namespace Flow123d

open Flow123d.Library

variable {A : Type}

namespace EquationInput

/-- The first and the last of the calls that were made, if any. -/
abbrev Calls := Option (TimeGovernor × TimeGovernor)

def Calls.start (calls : Calls) : Option TimeGovernor := calls.map Prod.fst

def Calls.lastTime (calls : Calls) : Double := calls.elim .negInf fun made => made.2.time

def Calls.next (calls : Calls) (time : TimeGovernor) : Calls :=
  some (calls.start.getD time, time)

variable {input : EquationInput A} {start : Option TimeGovernor} {last : Double}
  {records : List (DataRecord A)} {i : ℕ} {field : RegionField A}

/-- The time of the governor has reached that of the record. -/
def Come (time : TimeGovernor) (record : DataRecord A) : Bool := time.ge (.fin record.time)

theorem Updates.of_holds {bcRegions : Bool} {fields : List (RegionField A)}
    {holds : ℕ → RegionField A → Prop}
    (each : ∀ i field, fields[i]? = some field → field.bc = bcRegions → holds i field) :
    Updates bcRegions fields holds fields :=
  fun i field listed => ⟨each i field listed, fun _ => listed⟩

theorem readList_meets (complete : input.db.Complete) {time : TimeGovernor} {bcRegions : Bool}
    {rest : List (DataRecord A)}
    (named : ∀ record ∈ rest, Come time record = true → input.NamedOnKnown bcRegions record)
    (it : ℕ) {fields : List (RegionField A)}
    (holds : ∀ i field, fields[i]? = some field → field.bc = bcRegions →
      input.FieldHolds start last records i field) :
    Meets FieldError.InRange
      (fun outcome => outcome.1 = it + (rest.takeWhile (Come time)).length ∧
        Updates bcRegions fields
          (input.FieldHolds start last (records ++ rest.takeWhile (Come time))) outcome.2)
      (EqDataBase.readList input.fieldBase input.db time bcRegions rest it fields) := by
  induction rest generalizing records it fields with
  | nil =>
      refine ⟨rfl, Updates.of_holds ?_⟩
      rw [List.takeWhile_nil, List.append_nil]
      exact holds
  | cons record rest ih =>
      unfold EqDataBase.readList
      split_ifs with come
      · have first := named record List.mem_cons_self come
        refine Meets.bind (readListItem_meets complete first it holds) fun outcome read => ?_
        have later := fun other listed => named other (List.mem_cons_of_mem record listed)
        refine (ih later (it + 1) fun i field known => (read i field known).1).mono ?_
        rintro final ⟨position, updates⟩
        have taken : (record :: rest).takeWhile (Come time) =
            record :: rest.takeWhile (Come time) := List.takeWhile_cons_of_pos come
        rw [taken]
        constructor
        · rw [position, List.length_cons]
          omega
        · rw [List.append_cons]
          exact read.trans updates
      · have taken : (record :: rest).takeWhile (Come time) = [] :=
          List.takeWhile_cons_of_neg come
        rw [taken, List.append_nil]
        exact ⟨rfl, Updates.of_holds holds⟩

/-! ## Setting the time of the fields -/

/-- The first time is the current one, or an earlier one at which the fields were set. -/
def Since (input : EquationInput A) (start : Option TimeGovernor) (last : Double)
    (records : List (DataRecord A)) (bcRegions : Bool) (time first : TimeGovernor) : Prop :=
  start = some first ∨ start = none ∧ first = time ∧ last ≠ time.time ∧
    records = due time (input.list bcRegions)

theorem usedFirst_eq {first : TimeGovernor}
    (holds : input.FieldHolds (some first) last (due first (input.list field.bc)) i field)
    {reg : RegionIdx} (own : field.Own input.db reg) :
    field.recordAt reg =
      input.usedFirst first (input.disabledAt first reg i) field.toFieldDeclaration reg :=
  holds.records reg own

/-- The control field of the field, if its time is set already. -/
structure Controlled (input : EquationInput A) (first time : TimeGovernor)
    (records : List (DataRecord A)) (fields : List (RegionField A)) (field : RegionField A) :
    Prop where
  holds : ∀ c, field.noCheckControlField = some c → ∃ control, fields[c]? = some control ∧
    control.bc = field.bc ∧ input.FieldHolds (some first) time.time records c control

theorem isDisabled_eq {first time : TimeGovernor} {fields : List (RegionField A)}
    (declared : input.fields.declarations[i]? = some field.toFieldDeclaration)
    (controlled : Controlled input first time (due first (input.list field.bc)) fields field)
    {reg : RegionIdx} (own : field.Own input.db reg) :
    field.isDisabled input.fieldBase (EqDataBase.controlOf fields field) reg =
      input.disabledAt first reg i := by
  rw [disabledAt, declared]
  unfold RegionField.isDisabled EqDataBase.controlOf
  dsimp only
  cases given : field.noCheckControlField with
  | none => rfl
  | some c =>
      obtain ⟨control, listed, kind, holds⟩ := controlled.holds c given
      have before := (input.fields.controls i c _ declared given).1
      dsimp only
      rw [Option.bind_some, listed, if_pos before, holds.declared, Option.bind_some]
      rw [← kind] at holds
      rw [← usedFirst_eq holds ⟨own.1, own.2.trans kind.symm⟩, Option.any_some]

theorem setFieldTime_meets (complete : input.db.Complete) {time first : TimeGovernor}
    {fields : List (RegionField A)} (holds : input.FieldHolds start last records i field)
    (since : Since input start last records field.bc time first)
    (controlled : Controlled input first time records fields field) :
    Meets FieldError.InRange
      (fun final => input.FieldHolds (some first) time.time records i final ∧
        final.bc = field.bc)
      (EqDataBase.setFieldTime input.fieldBase input.db time.time field.bc fields field) := by
  unfold EqDataBase.setFieldTime
  rw [if_pos rfl]
  have controls : ∀ control ∈ EqDataBase.controlOf fields field, control.Ready input.db := by
    intro control listed
    obtain ⟨c, given, known⟩ := Option.bind_eq_some_iff.mp listed
    obtain ⟨other, found, _, ready⟩ := controlled.holds c given
    cases known.symm.trans found
    exact ready.ready
  have fresh : field.isFullyInitialized = false → field.lastSetTime ≠ time.time := by
    intro uninitialized
    rcases since with started | ⟨_, _, apart, _⟩
    · rw [holds.initialized, started] at uninitialized
      cases uninitialized
    · rw [holds.lastSetTime]
      exact apart
  refine Meets.bind (RegionField.setTime_meets complete holds.valid controls fresh) ?_
  rintro ⟨changed, final⟩ initialized
  have kind : final.bc = field.bc := congrArg FieldDeclaration.bc initialized.declaration
  have name : final.name = field.name := congrArg FieldDeclaration.name initialized.declaration
  have dflt : final.dflt = field.dflt := congrArg FieldDeclaration.dflt initialized.declaration
  refine ⟨⟨initialized.ready.toValid,
    holds.declared.trans (congrArg some initialized.declaration.symm),
    initialized.isFullyInitialized, initialized.lastSetTime, ?_⟩, kind⟩
  rintro reg ⟨inAll, ofKind⟩
  have own : field.Own input.db reg := ⟨inAll, ofKind.trans kind⟩
  have used : final.recordAt reg = (field.recordAt reg).or (if field.isFullyInitialized then
      none else field.startRecord input.fieldBase (EqDataBase.controlOf fields field) reg) :=
    initialized.records reg own
  rw [used, holds.records reg own, holds.initialized, name, dflt, Option.bind_some]
  rcases since with started | ⟨unstarted, rfl, _, read⟩
  · rw [started, Option.isSome_some, if_pos rfl, Option.or_none]
    rfl
  · subst read
    rw [unstarted, Option.isSome_none, if_neg Bool.false_ne_true, Option.bind_none,
      Option.or_none]
    unfold RegionField.startRecord
    rw [isDisabled_eq holds.declared controlled own]

/-- The fields of the equation, with what was read of the input. -/
def Declared (input : EquationInput A) (fields : List (RegionField A)) : Prop :=
  ∀ (i : ℕ) (field : RegionField A), fields[i]? = some field →
    input.fields.declarations[i]? = some field.toFieldDeclaration

theorem Updates.snoc {bcRegions : Bool} {fields done : List (RegionField A)}
    {holds : ℕ → RegionField A → Prop} (before : Updates bcRegions fields holds done)
    {updated : RegionField A} (same : updated.bc = bcRegions → holds done.length updated)
    (other : updated.bc ≠ bcRegions → fields[done.length]? = some updated) :
    Updates bcRegions fields holds (done ++ [updated]) := by
  intro i field listed
  rcases lt_trichotomy i done.length with inside | rfl | beyond
  · rw [List.getElem?_append_left inside] at listed
    exact before i field listed
  · rw [List.getElem?_concat_length] at listed
    cases listed
    exact ⟨same, other⟩
  · rw [List.getElem?_append_right beyond.le, List.getElem?_eq_none] at listed
    · cases listed
    · rw [List.length_singleton]
      omega

theorem setFieldTimes_meets (complete : input.db.Complete) {time first : TimeGovernor}
    {bcRegions : Bool} (since : Since input start last records bcRegions time first)
    {done rest fields : List (RegionField A)}
    (declared : input.Declared fields)
    (holds : ∀ i field, fields[i]? = some field → field.bc = bcRegions →
      input.FieldHolds start last records i field)
    (before : Updates bcRegions fields (input.FieldHolds (some first) time.time records) done)
    (behind : fields.drop done.length = rest) :
    Meets FieldError.InRange
      (Updates bcRegions fields (input.FieldHolds (some first) time.time records))
      (EqDataBase.setFieldTimes input.fieldBase input.db time.time bcRegions done rest) := by
  induction rest generalizing done with
  | nil => exact before
  | cons field rest ih =>
      have here : fields[done.length]? = some field := by
        rw [← List.head?_drop, behind, List.head?_cons]
      unfold EqDataBase.setFieldTimes
      have step : Meets FieldError.InRange
          (fun updated => Updates bcRegions fields
            (input.FieldHolds (some first) time.time records) (done ++ [updated]))
          (EqDataBase.setFieldTime input.fieldBase input.db time.time bcRegions
            (done ++ field :: rest) field) := by
        by_cases kind : field.bc = bcRegions
        · subst kind
          have controlled :
              Controlled input first time records (done ++ field :: rest) field := by
            refine ⟨fun c given => ?_⟩
            obtain ⟨earlier, sameKind⟩ := input.fields.controls _ c _ (declared _ _ here) given
            have known := List.getElem?_eq_getElem earlier
            obtain ⟨treated, untreated⟩ := before c _ known
            have ofKind : done[c].bc = field.bc := by
              by_contra apart
              exact apart (sameKind _ (declared c _ (untreated apart)))
            refine ⟨done[c], ?_, ofKind, treated ofKind⟩
            rw [List.getElem?_append_left earlier, known]
          refine (setFieldTime_meets complete (holds _ _ here rfl) since controlled).mono ?_
          intro updated treated
          exact before.snoc (fun _ => treated.1) fun apart => absurd treated.2 apart
        · unfold EqDataBase.setFieldTime
          rw [if_neg (Ne.symm kind)]
          exact before.snoc (fun same => absurd same kind) fun _ => here
      refine Meets.bind step fun updated next => ih next ?_
      rw [List.length_append, List.length_singleton, ← List.tail_drop, behind, List.tail_cons]

/-! ## A call -/

/-- The fields and the iterator of one kind of regions after some calls. -/
structure KindHolds (input : EquationInput A) (calls : Calls) (bcRegions : Bool) (it : ℕ)
    (fields : List (RegionField A)) : Prop where
  passed : (input.list bcRegions).take it =
    calls.elim [] fun made => due made.2 (input.list bcRegions)
  holds : ∀ i field, fields[i]? = some field → field.bc = bcRegions →
    input.FieldHolds calls.start calls.lastTime ((input.list bcRegions).take it) i field

/-- The time is a number that is not smaller than the last one. -/
structure Follows (calls : Calls) (time : TimeGovernor) : Prop where
  started : .negInf < time.time
  later : ∀ made ∈ calls, .negInf < made.2.time ∧ made.2.time ≤ time.time

theorem Declared.updates {bcRegions : Bool} {fields final : List (RegionField A)}
    (declared : input.Declared fields)
    (updates : Updates bcRegions fields (input.FieldHolds start last records) final) :
    input.Declared final := by
  intro i field listed
  obtain ⟨treated, other⟩ := updates i field listed
  by_cases kind : field.bc = bcRegions
  · exact (treated kind).declared
  · exact declared i field (other kind)

theorem setListTime_meets (complete : input.db.Complete) {time : TimeGovernor} {calls : Calls}
    {bcRegions : Bool} (follows : Follows calls time)
    (sorted : (input.list bcRegions).Pairwise fun before record => before.time ≤ record.time)
    (named : ∀ record ∈ due time (input.list bcRegions), input.NamedOnKnown bcRegions record)
    {it : ℕ} {fields : List (RegionField A)} (declared : input.Declared fields)
    (kindHolds : KindHolds input calls bcRegions it fields) :
    Meets FieldError.InRange
      (fun outcome => KindHolds input (calls.next time) bcRegions outcome.1 outcome.2 ∧
        input.Declared outcome.2 ∧
        ∀ (i : ℕ) (field : RegionField A), outcome.2[i]? = some field → field.bc ≠ bcRegions →
          fields[i]? = some field)
      (EqDataBase.setListTime input.fieldBase input.db time (input.list bcRegions) it bcRegions
        fields) := by
  have initially := EqDataBase.initially_due follows.started sorted
  have passed : ∀ record ∈ (input.list bcRegions).take it, Come time record = true := by
    intro record listed
    rw [kindHolds.passed] at listed
    cases calls with
    | none => cases listed
    | some made =>
        obtain ⟨started, later⟩ := follows.later made rfl
        exact TimeGovernor.ge_of_later started later (List.mem_filter.mp listed).2
  have read : due time (input.list bcRegions) = (input.list bcRegions).take it ++
      ((input.list bcRegions).drop it).takeWhile (Come time) :=
    initially.filter_eq_append passed
  have known : ∀ record ∈ (input.list bcRegions).drop it, Come time record = true →
      input.NamedOnKnown bcRegions record := fun record listed come =>
    named record (List.mem_filter.mpr ⟨List.mem_of_mem_drop listed, come⟩)
  unfold EqDataBase.setListTime
  refine Meets.bind (readList_meets complete known it kindHolds.holds) ?_
  rintro ⟨next, middle⟩ ⟨position, updates⟩
  dsimp only at position
  rw [← read] at updates
  have since : Since input calls.start calls.lastTime (due time (input.list bcRegions)) bcRegions
      time (calls.start.getD time) := by
    cases calls with
    | none =>
        refine .inr ⟨rfl, rfl, fun same => ?_, rfl⟩
        have started := follows.started
        rw [← same] at started
        cases started
    | some made => exact .inl rfl
  have treated : ∀ (i : ℕ) (field : RegionField A), middle[i]? = some field →
      field.bc = bcRegions → input.FieldHolds calls.start calls.lastTime
        (due time (input.list bcRegions)) i field :=
    fun i field listed => (updates i field listed).1
  have nothing : Updates bcRegions middle (input.FieldHolds (some (calls.start.getD time))
      time.time (due time (input.list bcRegions))) [] := nofun
  refine Meets.bind (setFieldTimes_meets complete since (declared.updates updates) treated
    nothing List.drop_zero) fun final set => ?_
  have taken : (input.list bcRegions).take next = due time (input.list bcRegions) := by
    rw [position, take_add_length_takeWhile, read]
  refine ⟨⟨taken, fun i field listed kind => ?_⟩, (declared.updates updates).updates set,
    fun i field listed apart => (updates i field ((set i field listed).2 apart)).2 apart⟩
  rw [taken]
  exact (set i field listed).1 kind

/-- The equation after some calls. -/
structure EquationHolds (input : EquationInput A) (calls : Calls) (data : EqDataBase A) :
    Prop where
  bulkList : data.bulkInputArray = input.list false
  bcList : data.boundaryInputArray = input.list true
  declared : input.Declared data.fieldList
  boundary : KindHolds input calls true data.boundaryIt data.fieldList
  bulk : KindHolds input calls false data.bulkIt data.fieldList

/-- What is assumed of the lists at a time. -/
structure Proper (input : EquationInput A) (time : TimeGovernor) : Prop where
  sorted : ∀ bcRegions,
    (input.list bcRegions).Pairwise fun before record => before.time ≤ record.time
  named : ∀ bcRegions, ∀ record ∈ due time (input.list bcRegions),
    input.NamedOnKnown bcRegions record

theorem KindHolds.of_same {calls : Calls} {bcRegions : Bool} {it : ℕ}
    {fields final : List (RegionField A)} (kindHolds : KindHolds input calls bcRegions it fields)
    (same : ∀ (i : ℕ) (field : RegionField A), final[i]? = some field → field.bc = bcRegions →
      fields[i]? = some field) : KindHolds input calls bcRegions it final :=
  ⟨kindHolds.passed, fun i field listed kind =>
    kindHolds.holds i field (same i field listed kind) kind⟩

theorem setTime_meets (complete : input.db.Complete) {time : TimeGovernor} {calls : Calls}
    (follows : Follows calls time) (proper : input.Proper time) {data : EqDataBase A}
    (holds : EquationHolds input calls data) :
    Meets FieldError.InRange (EquationHolds input (calls.next time))
      (data.setTime input.fieldBase input.db time) := by
  unfold EqDataBase.setTime
  rw [holds.bcList, holds.bulkList]
  refine Meets.bind (setListTime_meets complete follows (proper.sorted true)
    (proper.named true) holds.declared holds.boundary) ?_
  rintro ⟨boundaryIt, middle⟩ ⟨boundary, declared, others⟩
  have waiting : KindHolds input calls false data.bulkIt middle :=
    holds.bulk.of_same fun i field listed kind =>
      others i field listed (by simp [kind])
  refine Meets.bind (setListTime_meets complete follows (proper.sorted false)
    (proper.named false) declared waiting) ?_
  rintro ⟨bulkIt, final⟩ ⟨bulk, complete, kept⟩
  refine ⟨rfl, rfl, complete, ?_, bulk⟩
  exact boundary.of_same fun i field listed kind => kept i field listed (by simp [kind])

theorem initFromInput_holds {data : EqDataBase A}
    (started : EqDataBase.initFromInput input.fields input.bulkList input.bcList = .ok data) :
    EquationHolds input none data ∧ ∀ bcRegions,
      (input.list bcRegions).Pairwise fun before record => before.time ≤ record.time := by
  unfold EqDataBase.initFromInput at started
  cases bulkTimes : EqDataBase.checkTimes 0 input.bulkList with
  | error error =>
      rw [bulkTimes] at started
      cases started
  | ok checked =>
      cases bcTimes : EqDataBase.checkTimes 0 input.bcList with
      | error error =>
          rw [bulkTimes, bcTimes] at started
          cases started
      | ok checked =>
          rw [bulkTimes, bcTimes] at started
          cases started
          have declared : input.Declared
              (input.fields.declarations.map FieldDeclaration.field) := by
            intro i field listed
            rw [List.getElem?_map, Option.map_eq_some_iff] at listed
            obtain ⟨declaration, known, rfl⟩ := listed
            exact known
          have fresh : ∀ bcRegions, KindHolds input none bcRegions 0
              (input.fields.declarations.map FieldDeclaration.field) := by
            refine fun bcRegions => ⟨rfl, fun i field listed _ => ?_⟩
            have known := declared i field listed
            rw [List.getElem?_map, Option.map_eq_some_iff] at listed
            obtain ⟨declaration, _, rfl⟩ := listed
            exact ⟨⟨.inl rfl, nofun, nofun⟩, known, rfl, rfl, fun reg _ => rfl⟩
          refine ⟨⟨rfl, rfl, declared, fresh true, fresh false⟩, fun bcRegions => ?_⟩
          cases bcRegions with
          | true => exact (EqDataBase.sorted_of_checkTimes bcTimes).2
          | false => exact (EqDataBase.sorted_of_checkTimes bulkTimes).2

theorem setTimes_meets (complete : input.db.Complete) {first current : TimeGovernor}
    {later : List TimeGovernor} (started : .negInf < current.time)
    (ordered : (current :: later).IsChain fun before after => before.time ≤ after.time)
    (proper : ∀ time ∈ later, input.Proper time) {data : EqDataBase A}
    (holds : EquationHolds input (some (first, current)) data) :
    Meets FieldError.InRange
      (EquationHolds input (some (first, (current :: later).getLast (List.cons_ne_nil _ _))))
      (data.setTimes input.fieldBase input.db later) := by
  induction later generalizing current data with
  | nil => exact holds
  | cons time later ih =>
      obtain ⟨next, rest⟩ := List.isChain_cons_cons.mp ordered
      have after := Double.lt_of_lt_of_le started next
      have follows : Follows (some (first, current)) time := by
        refine ⟨after, fun made listed => ?_⟩
        cases listed
        exact ⟨started, next⟩
      unfold EqDataBase.setTimes
      rw [List.foldlM_cons]
      refine Meets.bind (setTime_meets complete follows (proper time List.mem_cons_self) holds)
        fun middle kept => ?_
      exact ih after rest (fun other listed => proper other (List.mem_cons_of_mem _ listed)) kept

/-! ## All calls -/

theorem le_getLast {current : TimeGovernor} {later : List TimeGovernor}
    (started : .negInf < current.time)
    (ordered : (current :: later).IsChain fun before after => before.time ≤ after.time) :
    ∀ time ∈ current :: later, .negInf < time.time ∧
      time.time ≤ ((current :: later).getLast (List.cons_ne_nil _ _)).time := by
  induction later generalizing current with
  | nil =>
      intro time listed
      cases List.mem_singleton.mp listed
      exact ⟨started, Double.le_self (Double.ne_nan_of_le (Double.le_of_lt started)).2⟩
  | cons next later ih =>
      obtain ⟨step, rest⟩ := List.isChain_cons_cons.mp ordered
      have others := ih (Double.lt_of_lt_of_le started step) rest
      intro time listed
      rcases List.mem_cons.mp listed with rfl | behind
      · exact ⟨started, Double.le_trans step (others next List.mem_cons_self).2⟩
      · exact others time behind

theorem setTimes_first (complete : input.db.Complete) {first : TimeGovernor}
    {later : List TimeGovernor} (number : .negInf < first.time)
    (ordered : (first :: later).IsChain fun before after => before.time ≤ after.time)
    (proper : ∀ time ∈ first :: later, input.Proper time) {data : EqDataBase A}
    (holds : EquationHolds input none data) :
    Meets FieldError.InRange
      (EquationHolds input (some (first, (first :: later).getLast (List.cons_ne_nil _ _))))
      (data.setTimes input.fieldBase input.db (first :: later)) := by
  have follows : Follows none first :=
    ⟨number, fun made listed => absurd listed (Option.not_mem_none made)⟩
  have begun : Meets FieldError.InRange (EquationHolds input (some (first, first)))
      (data.setTime input.fieldBase input.db first) :=
    setTime_meets complete follows (proper first List.mem_cons_self) holds
  unfold EqDataBase.setTimes
  rw [List.foldlM_cons]
  refine begun.bind fun middle kept => ?_
  exact setTimes_meets complete number ordered
    (fun time listed => proper time (List.mem_cons_of_mem _ listed)) kept

/-- What the field at the position uses on the region at a time: the record that was given
last, or the default value, where the check was not turned off at the first time. -/
structure UsesInput (input : EquationInput A) (first time : TimeGovernor) (i : ℕ)
    (field : RegionField A) (reg : RegionIdx) : Prop where
  given : ∀ record,
    lastInput input.db (due time (input.list field.bc)) field.name reg = some record →
      field.recordAt reg = some record
  default : lastInput input.db (due time (input.list field.bc)) field.name reg = none →
    input.disabledAt first reg i = false → field.recordAt reg = field.dflt

theorem KindHolds.usesInput {first time : TimeGovernor} {it : ℕ} {fields : List (RegionField A)}
    (kindHolds : KindHolds input (some (first, time)) field.bc it fields)
    (listed : fields[i]? = some field) {reg : RegionIdx} (own : field.Own input.db reg) :
    UsesInput input first time i field reg := by
  have used := (kindHolds.holds i field listed rfl).records reg own
  rw [kindHolds.passed] at used
  constructor
  · intro record given
    rw [used]
    exact given ▸ Option.some_or
  · intro missing enabled
    rw [used]
    change (lastInput input.db (due time (input.list field.bc)) field.name reg).or
      (if input.disabledAt first reg i then none else field.dflt) = _
    rw [missing, enabled, Option.none_or, if_neg Bool.false_ne_true]

/-- An equation with a mesh never leaves the table of a field, and after the calls its fields
use their input. -/
theorem setTimes_usesInput (input : EquationInput A) (built : input.db.Built)
    {data : EqDataBase A}
    (started : EqDataBase.initFromInput input.fields input.bulkList input.bcList = .ok data)
    {first : TimeGovernor} {later : List TimeGovernor} (number : .negInf < first.time)
    (ordered : (first :: later).IsChain fun before after => before.time ≤ after.time)
    (named : ∀ bcRegions,
      ∀ record ∈ due ((first :: later).getLast (List.cons_ne_nil _ _)) (input.list bcRegions),
        input.NamedOnKnown bcRegions record) :
    (∀ idx, data.setTimes input.fieldBase input.db (first :: later) ≠
        .error (.outOfRange idx)) ∧
      ∀ final, data.setTimes input.fieldBase input.db (first :: later) = .ok final →
        ∀ (i : ℕ) (field : RegionField A), final.fieldList[i]? = some field →
          ∀ item ∈ input.db.regionSet, (RegionIdx.mk item.index).isBoundary = field.bc →
            UsesInput input first ((first :: later).getLast (List.cons_ne_nil _ _)) i field
              ⟨item.index⟩ := by
  have complete := built.complete
  obtain ⟨holds, sorted⟩ := initFromInput_holds started
  have times := le_getLast number ordered
  have proper : ∀ time ∈ first :: later, input.Proper time := by
    intro time listed
    obtain ⟨begun, earlier⟩ := times time listed
    refine ⟨sorted, fun bcRegions record come => named bcRegions record ?_⟩
    obtain ⟨member, reached⟩ := List.mem_filter.mp come
    exact List.mem_filter.mpr ⟨member, TimeGovernor.ge_of_later begun earlier reached⟩
  have meets := setTimes_first complete number ordered proper holds
  constructor
  · exact fun idx failed => meets.of_error failed idx rfl
  · intro final returned i field listed item known kind
    have after := meets.of_ok returned
    have own : field.Own input.db ⟨item.index⟩ := ⟨complete.item_inSet_all known, kind⟩
    have kindHolds : ∃ it, KindHolds input
        (some (first, (first :: later).getLast (List.cons_ne_nil _ _))) field.bc it
        final.fieldList := by
      rcases Bool.eq_false_or_eq_true field.bc with kind | kind
      · rw [kind]
        exact ⟨_, after.boundary⟩
      · rw [kind]
        exact ⟨_, after.bulk⟩
    obtain ⟨it, ofKind⟩ := kindHolds
    exact ofKind.usesInput listed own

/-! ## An equation on a mesh with two regions -/

def rockAndTop : RegionDB :=
  ((RegionDB.init.add (.withLabel 1 "rock" 3)).2.add (.withLabel 2 ".top" 2)).2.close

theorem rockAndTop_built : rockAndTop.Built := .close (.add (.add .init _) _)

/-- The fields are constants, and their records are the values. -/
def constants : FieldBase ℕ := ⟨fun _ => none, some, fun _ _ => false⟩

def flowFields : FieldList ℕ where
  declarations :=
    [⟨"conductivity", false, some 1, none, []⟩, ⟨"bc_type", true, some 0, none, []⟩,
      ⟨"bc_pressure", true, some 9, some 1, [0]⟩]
  controls := by
    intro i c declaration declared given
    rcases i with _ | _ | _ | i <;> simp at declared <;> subst declared <;> simp at given
    subst given
    exact ⟨by decide, fun control known => by cases known; rfl⟩

def flowInput (bulkList bcList : List (DataRecord ℕ)) : EquationInput ℕ :=
  ⟨constants, rockAndTop, flowFields, bulkList, bcList⟩

/-- The governor of an equation that starts at the time. -/
def startingAt (time : ℚ) : TimeGovernor :=
  (TimeGovernor.Record.mk time 10 none none none).governor 0

/-- What is used after the calls, unless they fail. -/
def usedAfter (input : EquationInput ℕ) (calls : List TimeGovernor) (i : ℕ) (reg : RegionIdx) :
    Option (Option ℕ) :=
  let outcome := do
    let data ← EqDataBase.initFromInput input.fields input.bulkList input.bcList
    data.setTimes input.fieldBase input.db calls
  (outcome.toOption.bind fun final => final.fieldList[i]?).map fun field => field.recordAt reg

def twoTimes : EquationInput ℕ :=
  flowInput
    [⟨none, some "rock", none, 0, [("conductivity", 2)]⟩,
      ⟨none, none, some 1, 5, [("conductivity", 3)]⟩]
    [⟨some "BOUNDARY", none, none, 0, [("bc_type", 1), ("bc_pressure", 4)]⟩,
      ⟨none, some "sky", none, 2, []⟩]

def twoTimesData : EqDataBase ℕ :=
  ⟨twoTimes.fields.declarations.map FieldDeclaration.field, twoTimes.bulkList, 0,
    twoTimes.bcList, 0⟩

theorem setTimes_usesInput_twoTimes :
    ∃ final, twoTimesData.setTimes twoTimes.fieldBase twoTimes.db
        [startingAt 0, startingAt 6] = .ok final ∧
      ∀ field : RegionField ℕ, final.fieldList[0]? = some field → field.bc = false →
        field.name = "conductivity" → field.recordAt ⟨1⟩ = some 3 := by
  have ran : (twoTimesData.setTimes twoTimes.fieldBase twoTimes.db
      [startingAt 0, startingAt 6]).isOk = true := by decide +kernel
  cases outcome : twoTimesData.setTimes twoTimes.fieldBase twoTimes.db
      [startingAt 0, startingAt 6] with
  | error error =>
      rw [outcome] at ran
      cases ran
  | ok final =>
      refine ⟨final, rfl, fun field listed kind name => ?_⟩
      have number : .negInf < (startingAt 0).time := by decide +kernel
      have ordered : [startingAt 0, startingAt 6].IsChain
          fun before after => before.time ≤ after.time := by decide +kernel
      have named : ∀ bcRegions, ∀ record ∈ due (startingAt 6) (twoTimes.list bcRegions),
          twoTimes.NamedOnKnown bcRegions record := by decide +kernel
      have rock : ⟨1, 1, "rock", 3⟩ ∈ twoTimes.db.regionSet := by decide +kernel
      have uses := (setTimes_usesInput twoTimes rockAndTop_built rfl number ordered named).2
        final outcome 0 field listed _ rock (by rw [kind]; rfl)
      refine uses.given 3 ?_
      rw [kind, name]
      decide +kernel

def soonAfterOne : List (DataRecord ℕ) :=
  [⟨none, some "rock", none, 1 + 1 / 2 ^ 49, [("conductivity", 2)]⟩]

/-- A record is used a little before its time; and where the check of a field is turned off
the field has no value, although there is a default. -/
theorem not_always_usesInput :
    (usedAfter (flowInput soonAfterOne []) [startingAt 1] 0 ⟨1⟩ = some (some 2) ∧
      lastInput rockAndTop
        (soonAfterOne.filter fun record => .fin record.time ≤ (startingAt 1).time)
        "conductivity" ⟨1⟩ = none) ∧
      usedAfter (flowInput [] []) [startingAt 1] 2 ⟨0⟩ = some none ∧
      flowFields.declarations.map FieldDeclaration.dflt = [some 1, some 0, some 9] := by
  decide +kernel

end EquationInput

end Flow123d
