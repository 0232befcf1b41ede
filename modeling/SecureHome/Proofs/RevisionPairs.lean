import SecureHome.Lib.Chain
import SecureHome.Governance.History
import SecureHome.Proofs.CanonicalText

/-! Two consecutive revisions of the governance registry: what an accepted change keeps,
moves and brings in. -/

namespace SecureHome.Governance
open Lib

@[simp] theorem refuse_nil {wrong : Bool} {code : String} {path : JsString} {message : String} :
    refuse wrong code path message = [] ↔ wrong = false := by
  cases wrong <;> simp [refuse]

section Records

variable {records : List Value} {id : JsString} {record : Value}

/-- Records under distinct identifiers, each of the list and under its own. -/
structure Indexed (records : List Value) (index : List (JsString × Value)) : Prop where
  distinct : (index.map Prod.fst).Nodup
  listed : ∀ id record, index.lookup id = some record → record ∈ records ∧ textAt record "id" = some id
  complete : ∀ record ∈ records, ∀ id, textAt record "id" = some id → index.lookup id ≠ none

/-- One more record keeps an index one of all records. -/
theorem Indexed.extend {index : List (JsString × Value)} (indexed : Indexed records index) (record : Value) :
    Indexed (records ++ [record]) (match textAt record "id" with
      | some id => put index id record
      | none => index) := by
  split
  next id named =>
    refine ⟨put_distinct indexed.distinct, ?_, ?_⟩
    · intro other found held
      rw [lookup_put] at held
      split at held
      next same =>
        cases held
        rw [beq_iff_eq] at same
        exact ⟨List.mem_append_right _ (List.mem_singleton_self _), same ▸ named⟩
      · exact ⟨List.mem_append_left _ (indexed.listed other found held).1, (indexed.listed other found held).2⟩
    · intro given member other name
      rw [lookup_put]
      split
      · exact Option.some_ne_none _
      next different =>
        rcases List.mem_append.mp member with before | last
        · exact indexed.complete given before other name
        · rw [List.mem_singleton.mp last, named] at name
          exact absurd (by simpa using (Option.some.inj name).symm) different
  next unnamed =>
    refine ⟨indexed.distinct, ?_, ?_⟩
    · intro other found held
      exact ⟨List.mem_append_left _ (indexed.listed other found held).1, (indexed.listed other found held).2⟩
    · intro given member other name
      rcases List.mem_append.mp member with before | last
      · exact indexed.complete given before other name
      · rw [List.mem_singleton.mp last, unnamed] at name
        cases name

theorem byId_indexed (records : List Value) : Indexed records (byId records) := by
  have step (given done : List Value) (index : List (JsString × Value)) (indexed : Indexed done index) :
      Indexed (done ++ given) (given.foldl (fun index record =>
        match textAt record "id" with
        | some id => put index id record
        | none => index) index) := by
    induction given generalizing done index with
    | nil => simpa using indexed
    | cons record rest ih =>
      rw [List.foldl_cons, List.append_cons]
      exact ih _ _ (indexed.extend record)
  have whole := step records [] [] ⟨List.nodup_nil, fun _ _ held => (by cases held), fun _ member => absurd member List.not_mem_nil⟩
  rw [List.nil_append] at whole
  exact whole

theorem lookup_byId_iff : (byId records).lookup id ≠ none ↔ ∃ record ∈ records, textAt record "id" = some id := by
  constructor
  · intro held
    obtain ⟨record, found⟩ := Option.ne_none_iff_exists'.mp held
    exact ⟨record, (byId_indexed records).listed id record found⟩
  · rintro ⟨record, member, named⟩
    exact (byId_indexed records).complete record member id named

theorem mem_byId : (id, record) ∈ byId records ↔ (byId records).lookup id = some record :=
  ⟨lookup_of_mem (byId_indexed records).distinct, mem_of_lookup⟩

end Records

section Moves

/-- A move that a table lists. -/
def Legal (table : List (String × List String)) (source target : Option Value) : Prop :=
  ∃ row ∈ table, isText source row.1 = true ∧ oneOf target row.2 = true

/-- A lifecycle that a table has a row for. -/
def Known (table : List (String × List String)) (lifecycle : Option Value) : Prop :=
  ∃ row ∈ table, isText lifecycle row.1 = true

variable {table : List (String × List String)} {source target : Option Value}

theorem legal_of_move (known : Known table source) (move : illegalMove table source target = false) : Legal table source target := by
  unfold illegalMove successors at move
  cases found : table.find? fun row => isText source row.1 with
  | none =>
    obtain ⟨row, listed, named⟩ := known
    exact absurd named (List.find?_eq_none.mp found row listed)
  | some row =>
    rw [found] at move
    exact ⟨row, List.mem_of_find?_eq_some found, by simpa using List.find?_some found, by simpa using move⟩

theorem known_of_oneOf {texts : List String} (rows : ∀ text ∈ texts, text ∈ table.map Prod.fst)
    (listed : oneOf source texts = true) : Known table source := by
  obtain ⟨text, member, held⟩ := List.any_eq_true.mp listed
  obtain ⟨row, listed, rfl⟩ := List.mem_map.mp (rows text member)
  exact ⟨row, listed, held⟩

theorem isText_iff {value : Option Value} {text : String} : isText value text = true ↔ value = some (.string (units text)) := by
  unfold isText
  split
  next held => simp
  next other => simpa using fun same => other _ same

end Moves

section Current

variable {Context : Type} {checks : OtherChecks Context} {state : Value}

/-- The target a node names. -/
abbrev named (node : Value) : Option JsString := textAt node "replaces"

/-- Linking adds a target for every node that names one, and refuses the second of each. -/
theorem linkNodes_single {nodes entries : List (JsString × Value)} {replacedBy : List (JsString × JsString)}
    (linked : (linkNodes checks nodes entries replacedBy).1 = []) :
    (∀ entry ∈ entries, ∀ target, named entry.2 = some target → replacedBy.lookup target = none) ∧
      entries.Pairwise fun one other => ∀ target, named one.2 = some target → named other.2 ≠ some target := by
  induction entries generalizing replacedBy with
  | nil => exact ⟨fun _ member => absurd member List.not_mem_nil, .nil⟩
  | cons entry rest ih =>
    obtain ⟨id, node⟩ := entry
    rw [linkNodes] at linked
    split at linked
    next empty =>
      obtain ⟨fresh, apart⟩ := ih linked
      have unnamed (target : JsString) : named node ≠ some target := by
        intro name
        unfold named textAt at name
        unfold isNull at empty
        split at name <;> simp_all
      exact ⟨List.forall_mem_cons.mpr ⟨fun target name => absurd name (unnamed target), fresh⟩,
        .cons (fun _ _ target name => absurd name (unnamed target)) apart⟩
    next =>
    split at linked
    · cases linked
    next target oldNode found =>
      obtain ⟨name, here, kept⟩ := Option.bind_eq_some_iff.mp found
      obtain ⟨_, _, same⟩ := Option.map_eq_some_iff.mp kept
      obtain ⟨rfl, rfl⟩ := Prod.mk.inj same
      obtain ⟨problems, later⟩ := List.append_eq_nil_iff.mp linked
      obtain ⟨fresh, apart⟩ := ih later
      have free := refuse_nil.mp (List.append_eq_nil_iff.mp problems).1
      refine ⟨List.forall_mem_cons.mpr ⟨?_, ?_⟩, .cons ?_ apart⟩
      · intro other name'
        cases here.symm.trans name'
        simpa using free
      · intro entry member other name'
        have free' := fresh entry member other name'
        rw [lookup_put] at free'
        split at free'
        · cases free'
        · exact free'
      · intro entry member other name' also
        cases here.symm.trans name'
        have free' := fresh entry member _ also
        rw [lookup_put, if_pos (beq_self_eq_true _)] at free'
        cases free'

/-- A target no node names is named by none of the links. -/
theorem linkNodes_unnamed {nodes entries : List (JsString × Value)} {replacedBy : List (JsString × JsString)} {target : JsString}
    (unnamed : ∀ entry ∈ entries, named entry.2 ≠ some target) (free : replacedBy.lookup target = none) :
    (linkNodes checks nodes entries replacedBy).2.lookup target = none := by
  induction entries generalizing replacedBy with
  | nil => exact free
  | cons entry rest ih =>
    obtain ⟨id, node⟩ := entry
    obtain ⟨here, later⟩ := List.forall_mem_cons.mp unnamed
    rw [linkNodes]
    split
    · exact ih later free
    split
    · exact ih later free
    next other oldNode found =>
      obtain ⟨name, named, kept⟩ := Option.bind_eq_some_iff.mp found
      obtain ⟨_, _, same⟩ := Option.map_eq_some_iff.mp kept
      obtain ⟨rfl, rfl⟩ := Prod.mk.inj same
      refine ih later ?_
      rw [lookup_put, if_neg]
      · exact free
      · intro same
        rw [beq_iff_eq] at same
        exact here (same ▸ named)

/-- What an accepted state is, so far as its successors rely on it. -/
structure Sound (state : Value) : Prop where
  adrs : ∀ adr ∈ members state "adrs", Known legalAdrTransitions (read adr "lifecycle")
  landings : ∀ landing ∈ members state "landings", Known legalDeliveryTransitions (readIn (read landing "delivery") "lifecycle")
  single : ∀ one node other node' target, (byId (nodesOf state)).lookup one = some node →
    (byId (nodesOf state)).lookup other = some node' → named node = some target → named node' = some target → one = other

theorem entries_valid {context : Context} {name : String} {items : List Value} {index : Nat} {ids : List JsString}
    (quiet : validateEntries checks context name index ids items = []) :
    ∀ item ∈ items, ∃ path, validator checks context name item path = [] := by
  induction items generalizing index ids with
  | nil => exact fun _ member => absurd member List.not_mem_nil
  | cons item rest ih =>
    rw [validateEntries] at quiet
    obtain ⟨here, more⟩ := List.append_eq_nil_iff.mp quiet
    refine List.forall_mem_cons.mpr ⟨⟨_, here⟩, ?_⟩
    split at more
    · exact ih (List.append_eq_nil_iff.mp more).2
    · exact ih more

theorem requireObject_nil {value : Option Value} {path : JsString} {code : String} (quiet : requireObject value path code = []) :
    isObject value = true := by
  unfold requireObject at quiet
  simpa using quiet

theorem members_valid {context : Context} {name : String} (listed : name ∈ collections)
    (quiet : validateTopLevel checks context state = []) :
    ∀ item ∈ members state name, ∃ path, validator checks context name item path = [] := by
  unfold validateTopLevel at quiet
  split at quiet
  · simp only [List.append_eq_nil_iff, List.flatMap_eq_nil_iff] at quiet
    have collection := quiet.1.1.2 name listed
    unfold validateCollection at collection
    unfold members
    split at collection
    · exact entries_valid collection
    · cases collection
  next shape => exact absurd (requireObject_nil quiet) shape

theorem adr_known {context : Context} {adr : Value} {path : JsString} (quiet : validateAdr checks context adr path = []) :
    Known legalAdrTransitions (read adr "lifecycle") := by
  unfold validateAdr at quiet
  split at quiet
  · simp only [List.append_eq_nil_iff, refuse_nil, Bool.not_eq_false'] at quiet
    exact known_of_oneOf (by decide) quiet.1.1.1.2
  next shape => exact absurd (requireObject_nil quiet) shape

theorem landing_known {context : Context} {landing : Value} {path : JsString} (quiet : validateLanding checks context landing path = []) :
    Known legalDeliveryTransitions (readIn (read landing "delivery") "lifecycle") := by
  unfold validateLanding at quiet
  split at quiet
  · simp only [List.append_eq_nil_iff] at quiet
    have delivery := quiet.1.2
    unfold validateDelivery at delivery
    split at delivery
    next held =>
      simp only [List.append_eq_nil_iff, refuse_nil, Bool.not_eq_false'] at delivery
      exact known_of_oneOf (by decide) delivery.1.2
    next other =>
      have shape := requireObject_nil delivery
      unfold isObject at shape
      split at shape
      next held => exact absurd held (other _)
      · cases shape
  next shape => exact absurd (requireObject_nil quiet) shape

theorem deriveNodes_single (quiet : (deriveNodes checks state).1 = []) {one other target : JsString} {node node' : Value}
    (found : (byId (nodesOf state)).lookup one = some node) (also : (byId (nodesOf state)).lookup other = some node')
    (name : named node = some target) (name' : named node' = some target) : one = other := by
  unfold deriveNodes at quiet
  simp only [List.append_eq_nil_iff] at quiet
  have apart := (linkNodes_single quiet.1.1.1.1.1.1.1).2
  by_contra different
  have symmetric : Std.Symm fun one other : JsString × Value => ∀ target, named one.2 = some target → named other.2 ≠ some target :=
    ⟨fun _ _ apart target name name' => apart target name' name⟩
  have both := apart.forall (mem_of_lookup found) (mem_of_lookup also) fun same => different (congrArg Prod.fst same)
  exact both target name name'

/-- What the derivation of nodes calls current: what no node names. -/
theorem current_of_unnamed {id : JsString} {node : Value} (found : (byId (nodesOf state)).lookup id = some node)
    (unnamed : ∀ other node', (byId (nodesOf state)).lookup other = some node' → named node' ≠ some id) :
    id ∈ (deriveNodes checks state).2.currentIds := by
  unfold deriveNodes
  refine List.mem_filter.mpr ⟨mem_keys.mpr ⟨node, found⟩, ?_⟩
  rw [Option.isNone_iff_eq_none]
  exact linkNodes_unnamed (fun entry member => unnamed entry.1 entry.2 (mem_byId.mp member)) rfl

theorem sound_of_valid {context : Context} (shape : validateTopLevel checks context state = [])
    (nodes : (deriveNodes checks state).1 = []) : Sound state where
  adrs adr member := by
    obtain ⟨path, quiet⟩ := members_valid (by decide : "adrs" ∈ collections) shape adr member
    exact adr_known quiet
  landings landing member := by
    obtain ⟨path, quiet⟩ := members_valid (by decide : "landings" ∈ collections) shape landing member
    exact landing_known quiet
  single _ _ _ _ _ found also name name' := deriveNodes_single nodes found also name name'

/-- What is derived of a state. -/
def derivedOf (checks : OtherChecks Context) (state : Value) : Derived :=
  let questions := (deriveQuestions state).2
  let nodes := (deriveNodes checks state).2
  let gates := (deriveGates state questions).2
  { questions, gates, nodes, readiness := deriveReadiness state nodes gates }

/-- A verdict of no problem is one of a valid state, and of all that is derived of it. -/
theorem evaluateState_accepts {text : JsString} {context : Context} (ok : (evaluateState checks text context).ok = true) :
    ∃ state, validateTopLevel checks context state = [] ∧ (deriveNodes checks state).1 = [] ∧
      (evaluateState checks text context).state = some state ∧
      (evaluateState checks text context).derived = some (derivedOf checks state) := by
  unfold evaluateState at ok ⊢
  cases parsed : checks.parseStrictJson text with
  | error message =>
    rw [parsed] at ok
    cases ok
  | ok state =>
    simp only [parsed] at ok ⊢
    split at ok
    · cases ok
    next shape =>
    split at ok
    · cases ok
    next answered =>
    split at ok
    · cases ok
    next linked =>
    split at ok
    · cases ok
    next evaluated =>
    split at ok
    · cases ok
    next seeded =>
      rw [if_neg shape, if_neg answered, if_neg linked, if_neg evaluated, if_neg seeded]
      rw [ne_eq, not_not] at shape linked
      unfold shapeProblems at shape
      simp only [List.append_eq_nil_iff] at shape
      exact ⟨state, shape.1.2, linked, rfl, rfl⟩

/-- Nothing is found in a state, whatever text it stands in. -/
def Quiet (checks : OtherChecks Context) (context : Context) (state : Value) : Prop :=
  checks.stateBytes context = none ∧ checks.manifestProblems context ++ validateTopLevel checks context state ++
      (if isObject (some state) then
        checks.historicalCorrespondence context state ++ checks.genesisBindings context state ++ checks.adrRelationships state
      else []) = [] ∧
    (deriveQuestions state).1 = [] ∧ (deriveNodes checks state).1 = [] ∧ (deriveGates state (deriveQuestions state).2).1 = [] ∧
      seedProblems state (derivedOf checks state).readiness = []

/-- The verdict on a state in which nothing is found. -/
def acceptance (checks : OtherChecks Context) (context : Context) (state : Value) : Evaluation Context :=
  { ok := true, problems := [], state := some state, sourceManifest := checks.sourceManifest context, context := some context
    derived := some (derivedOf checks state) }

/-- The canonical text of a state in which nothing is found is accepted. -/
theorem evaluateState_quiet {context : Context} (parsed : checks.parseStrictJson (canonicalSerialize state) = .ok state)
    (quiet : Quiet checks context state) : evaluateState checks (canonicalSerialize state) context = acceptance checks context state := by
  obtain ⟨unread, shape, answered, linked, evaluated, seeded⟩ := quiet
  have canonical : checkCanonical checks context (canonicalSerialize state) state = [] := by
    unfold checkCanonical
    rw [unread]
    simp [refuse]
  have fitting : shapeProblems checks (canonicalSerialize state) context state = [] := by
    unfold shapeProblems
    rw [canonical]
    exact shape
  unfold evaluateState
  rw [parsed]
  dsimp only
  rw [if_neg (not_not.mpr fitting), if_neg (not_not.mpr answered), if_neg (not_not.mpr linked), if_neg (not_not.mpr evaluated)]
  exact if_neg (not_not.mpr seeded)

theorem evaluateState_ok {text : JsString} {context : Context} (ok : (evaluateState checks text context).ok = true) :
    ∃ state, (evaluateState checks text context).state = some state ∧ Sound state := by
  obtain ⟨state, shape, linked, held, _⟩ := evaluateState_accepts ok
  exact ⟨state, held, sound_of_valid shape linked⟩

end Current

section Pairs

variable {Context : Type} {others : OtherComparisons Context} {base target : Value}

/-- Two properties of one canonical form. -/
def Unchanged (before after : Option Value) : Prop := canonical before = canonical after

theorem unchanged_of {before after : Option Value} (kept : changed before after = false) : Unchanged before after := by
  unfold changed at kept
  exact canonicalText_eq_iff.mp (by simpa using kept)

theorem Unchanged.trans {one two three : Option Value} (first : Unchanged one two) (second : Unchanged two three) :
    Unchanged one three := Eq.trans first second

/-- The record of a collection that an identifier names. -/
def recordOf (collection : String) (id : JsString) (state : Value) : Option Value := (byId (members state collection)).lookup id

def nodeOf (id : JsString) (state : Value) : Option Value := (byId (nodesOf state)).lookup id

theorem survival_carries (quiet : compareRecordSurvival base target = []) {collection : String} (listed : collection ∈ collections)
    (id : JsString) : Carries (recordOf collection id) (fun _ _ => True) base target := by
  intro record found
  unfold compareRecordSurvival at quiet
  simp only [List.flatMap_eq_nil_iff, refuse_nil] at quiet
  have kept := quiet collection listed (id, record) (mem_of_lookup found)
  cases here : recordOf collection id target with
  | none =>
    unfold recordOf at here
    simp [here] at kept
  | some next => exact ⟨next, rfl, trivial⟩

theorem same_eq {one other : Option Value} (equal : same one other = true) : one = other := by
  unfold same at equal
  split at equal
  · rfl
  · rfl
  · rw [decide_eq_true_eq] at equal
    rw [equal]
  next first second =>
    obtain ⟨text, _, _⟩ := first
    obtain ⟨text', _, _⟩ := second
    rw [decide_eq_true_eq] at equal
    cases equal
    rfl
  · rw [decide_eq_true_eq] at equal
    rw [equal]
  · cases equal

/-- What a decision keeps once it is taken. -/
structure DecisionKept (before after : Value) : Prop where
  decided : isText (read after "lifecycle") "Proposed" = false
  path : read before "path" = read after "path"
  resolves : Unchanged (read before "resolves") (read after "resolves")
  supersedes : Unchanged (read before "supersedes") (read after "supersedes")
  acceptance : Unchanged (read before "acceptance") (read after "acceptance")

theorem DecisionKept.trans {one two three : Value} (first : DecisionKept one two) (second : DecisionKept two three) :
    DecisionKept one three where
  decided := second.decided
  path := first.path.trans second.path
  resolves := first.resolves.trans second.resolves
  supersedes := first.supersedes.trans second.supersedes
  acceptance := first.acceptance.trans second.acceptance

/-- A text is one text. -/
theorem isText_unique {value : Option Value} {one other : String} (first : isText value one = true) (second : isText value other = true) :
    units one = units other := by
  rw [isText_iff] at first second
  rw [first] at second
  exact Json.string.inj (Option.some.inj second)

/-- No legal move returns to `Proposed`. -/
theorem legal_decided {source after : Option Value} (legal : Legal legalAdrTransitions source after)
    (decided : isText source "Proposed" = false) : isText after "Proposed" = false := by
  obtain ⟨row, listed, named, moved⟩ := legal
  obtain ⟨next, member, held⟩ := List.any_eq_true.mp moved
  by_contra back
  rw [Bool.not_eq_false] at back
  have returned := isText_unique held back
  have table : legalAdrTransitions.all (fun row => row.1 = "Proposed" || row.2.all fun next => units next ≠ units "Proposed") = true := by
    decide
  have here := List.all_eq_true.mp table row listed
  rw [Bool.or_eq_true, decide_eq_true_eq] at here
  rcases here with proposed | others
  · rw [proposed, decided] at named
    cases named
  · exact absurd returned (by simpa using List.all_eq_true.mp others next member)

theorem decision_moves (sound : Sound base) (quiet : compareDecisions others base target = []) {id : JsString} {adr adr' : Value}
    (found : recordOf "adrs" id base = some adr) (found' : recordOf "adrs" id target = some adr') :
    Legal legalAdrTransitions (read adr "lifecycle") (read adr' "lifecycle") ∧
      (isText (read adr "lifecycle") "Proposed" = false → DecisionKept adr adr') := by
  unfold compareDecisions at quiet
  simp only [List.append_eq_nil_iff, List.flatMap_eq_nil_iff] at quiet
  have pair := quiet.2 (id, adr) (mem_of_lookup found)
  unfold recordOf at found'
  simp only [found'] at pair
  unfold compareDecision at pair
  simp only [List.append_eq_nil_iff] at pair
  obtain ⟨⟨move, _⟩, kept⟩ := pair
  have legal := legal_of_move (sound.adrs adr ((byId_indexed _).listed id adr found).1)
    (by by_contra illegal; rw [if_pos (by simpa using illegal)] at move; cases move)
  refine ⟨legal, fun decided => ?_⟩
  unfold decidedProblems at kept
  rw [if_neg (by simp [decided])] at kept
  simp only [List.append_eq_nil_iff, refuse_nil, Bool.not_eq_false'] at kept
  obtain ⟨⟨⟨acceptance, path⟩, resolves⟩, supersedes⟩ := kept
  exact ⟨legal_decided legal decided, same_eq path, unchanged_of resolves, unchanged_of supersedes, unchanged_of acceptance⟩

theorem decision_born (quiet : compareDecisions others base target = []) {id : JsString} {adr : Value}
    (absent : recordOf "adrs" id base = none) (found : recordOf "adrs" id target = some adr) :
    isText (read adr "lifecycle") "Proposed" = true := by
  unfold compareDecisions at quiet
  simp only [List.append_eq_nil_iff, List.flatMap_eq_nil_iff] at quiet
  have pair := quiet.1 (id, adr) (mem_of_lookup found)
  unfold recordOf at absent
  simpa [absent] using pair

def lifecycleOf (landing : Value) : Option Value := readIn (read landing "delivery") "lifecycle"

/-- What a landing keeps once its delivery is over. -/
structure DeliveryKept (before after : Value) : Prop where
  completed : isText (lifecycleOf before) "Complete" = true → isText (lifecycleOf after) "Complete" = true ∧
    Unchanged (readIn (read before "delivery") "completion") (readIn (read after "delivery") "completion")
  withdrawn : isText (lifecycleOf before) "Withdrawn" = true → isText (lifecycleOf after) "Withdrawn" = true ∧
    Unchanged (readIn (read before "delivery") "withdrawal") (readIn (read after "delivery") "withdrawal")

theorem DeliveryKept.trans {one two three : Value} (first : DeliveryKept one two) (second : DeliveryKept two three) :
    DeliveryKept one three where
  completed ended :=
    have ⟨still, kept⟩ := first.completed ended
    have ⟨always, also⟩ := second.completed still
    ⟨always, kept.trans also⟩
  withdrawn ended :=
    have ⟨still, kept⟩ := first.withdrawn ended
    have ⟨always, also⟩ := second.withdrawn still
    ⟨always, kept.trans also⟩

/-- A terminal lifecycle moves to itself. -/
theorem legal_terminal {source after : Option Value} {lifecycle : String} (terminal : lifecycle = "Complete" ∨ lifecycle = "Withdrawn")
    (legal : Legal legalDeliveryTransitions source after) (ended : isText source lifecycle = true) : isText after lifecycle = true := by
  obtain ⟨row, listed, named, moved⟩ := legal
  have alone : legalDeliveryTransitions.all (fun row => units row.1 ≠ units lifecycle || row.2 = [lifecycle]) = true := by
    rcases terminal with rfl | rfl <;> decide
  have here := List.all_eq_true.mp alone row listed
  rw [Bool.or_eq_true, decide_eq_true_eq, decide_eq_true_eq] at here
  rcases here with other | only
  · exact absurd (isText_unique named ended) other
  · rw [only] at moved
    simpa [oneOf] using moved

theorem delivery_moves (sound : Sound base) (quiet : compareDelivery base target = []) {id : JsString} {landing landing' : Value}
    (found : recordOf "landings" id base = some landing) (found' : recordOf "landings" id target = some landing') :
    Legal legalDeliveryTransitions (lifecycleOf landing) (lifecycleOf landing') ∧ DeliveryKept landing landing' := by
  unfold compareDelivery at quiet
  simp only [List.flatMap_eq_nil_iff] at quiet
  have pair := quiet (id, landing) (mem_of_lookup found)
  unfold recordOf at found'
  simp only [found'] at pair
  unfold compareLanding at pair
  simp only [List.append_eq_nil_iff, refuse_nil] at pair
  obtain ⟨⟨⟨⟨move, completion⟩, withdrawal⟩, _⟩, _⟩ := pair
  have legal := legal_of_move (sound.landings landing ((byId_indexed _).listed id landing found).1)
    (by by_contra illegal; rw [if_pos (by simpa using illegal)] at move; cases move)
  refine ⟨legal, ⟨fun ended => ⟨legal_terminal (.inl rfl) legal ended, ?_⟩, fun ended => ⟨legal_terminal (.inr rfl) legal ended, ?_⟩⟩⟩
  · unfold lifecycleOf at ended
    rw [ended, Bool.true_and] at completion
    exact unchanged_of completion
  · unfold lifecycleOf at ended
    rw [ended, Bool.true_and] at withdrawal
    exact unchanged_of withdrawal

/-- What a node keeps for ever. -/
structure NodeKept (before after : Value) : Prop where
  identity : ∀ field, Unchanged (((semanticIdentity before).lookup field).getD none) (((semanticIdentity after).lookup field).getD none)
  replaces : Unchanged (read before "replaces") (read after "replaces")
  replacement : Unchanged (read before "replacement") (read after "replacement")

/-- A node names one target for ever. -/
theorem NodeKept.named {before after : Value} (kept : NodeKept before after) {target : JsString}
    (name : named before = some target) : named after = some target := by
  unfold Governance.named textAt at name ⊢
  split at name
  next text held =>
    cases name
    have same := kept.replaces
    unfold Unchanged at same
    rw [held, canonical_string.mpr rfl] at same
    rw [canonical_string.mp same.symm]
  · cases name

theorem NodeKept.trans {one two three : Value} (first : NodeKept one two) (second : NodeKept two three) : NodeKept one three where
  identity field := (first.identity field).trans (second.identity field)
  replaces := first.replaces.trans second.replaces
  replacement := first.replacement.trans second.replacement

theorem identity_kept {id : JsString} {node node' : Value} (named : textAt node "id" = some id) (named' : textAt node' "id" = some id)
    (quiet : compareIdentity id node node' = []) (field : String) :
    Unchanged (((semanticIdentity node).lookup field).getD none) (((semanticIdentity node').lookup field).getD none) := by
  unfold compareIdentity at quiet
  simp only [List.flatMap_eq_nil_iff] at quiet
  have held {node : Value} (named : textAt node "id" = some id) : read node "id" = some (.string id) := by
    unfold textAt at named
    split at named
    next text found =>
      cases named
      exact found
    · cases named
  by_cases listed : field ∈ (semanticIdentity node).map Prod.fst
  · obtain ⟨value, found⟩ := mem_keys.mp listed
    rw [found, Option.getD_some]
    by_cases fixed : field = "id" ∨ field = "schemaVersion"
    · rcases fixed with rfl | rfl
      · cases found
        exact congrArg canonical ((held named).trans (held named').symm)
      · cases found
        rfl
    · have kept := quiet (field, value) (mem_of_lookup found)
      rw [if_neg fixed, refuse_nil] at kept
      exact unchanged_of kept
  · have absent (node' : Value) (unlisted : field ∉ (semanticIdentity node').map Prod.fst) :
        (semanticIdentity node').lookup field = none := by
      by_contra found
      obtain ⟨value, found⟩ := Option.ne_none_iff_exists'.mp found
      exact unlisted (mem_keys.mpr ⟨value, found⟩)
    rw [absent node listed, absent node' listed]
    rfl

theorem node_moves (rules : compareRuleInputs base target = []) (replacement : compareReplacement base target = []) {id : JsString}
    {node node' : Value} (found : nodeOf id base = some node) (found' : nodeOf id target = some node') : NodeKept node node' := by
  unfold compareRuleInputs at rules
  unfold compareReplacement at replacement
  simp only [List.flatMap_eq_nil_iff] at rules replacement
  have identity := rules (id, node) (mem_of_lookup found)
  have kept := replacement (id, node') (mem_of_lookup found')
  have here : (byId (nodesOf base)).lookup id = some node := found
  have there : (byId (nodesOf target)).lookup id = some node' := found'
  simp only [there] at identity
  simp only [here] at kept
  unfold keptReplacement at kept
  simp only [List.append_eq_nil_iff, refuse_nil] at kept
  exact ⟨identity_kept ((byId_indexed _).listed id node here).2 ((byId_indexed _).listed id node' there).2 identity,
    unchanged_of kept.1, unchanged_of kept.2⟩

/-- How a node comes into the registry: in place of a current one of its kind. -/
structure Introduced (checks : OtherChecks Context) (base : Value) (node : Value) (replaced : JsString) (old : Value) : Prop where
  names : named node = some replaced
  held : nodeOf replaced base = some old
  current : replaced ∈ (deriveNodes checks base).2.currentIds
  kind : read old "kind" = read node "kind"

theorem node_born {checks : OtherChecks Context} (quiet : compareReplacement base target = []) {id : JsString} {node : Value}
    (absent : nodeOf id base = none) (found : nodeOf id target = some node) :
    ∃ replaced old, Introduced checks base node replaced old := by
  unfold compareReplacement at quiet
  simp only [List.flatMap_eq_nil_iff] at quiet
  have pair := quiet (id, node) (mem_of_lookup found)
  have gone : (byId (nodesOf base)).lookup id = none := absent
  simp only [gone] at pair
  unfold introducedNode at pair
  split at pair
  · simp [refuse] at pair
  next replaced name =>
  split at pair
  · cases pair
  next old held =>
    simp only [List.append_eq_nil_iff, refuse_nil, Bool.not_eq_false'] at pair
    obtain ⟨⟨unnamed, kind⟩, _⟩ := pair
    refine ⟨replaced, old, name, held, current_of_unnamed held ?_, same_eq kind⟩
    intro other node' listed names
    refine absurd unnamed ?_
    rw [if_pos]
    · exact List.cons_ne_nil _ _
    · rw [List.contains_iff_mem]
      exact List.mem_filterMap.mpr ⟨(other, node'), mem_of_lookup listed, names⟩

end Pairs

end SecureHome.Governance
