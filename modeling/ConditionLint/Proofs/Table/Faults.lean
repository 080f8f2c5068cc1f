import ConditionLint.Proofs.Table.Growth

/-!
# The first fault of a list

What an accepted list of descriptors has to satisfy is said here of its entries, without a table: an
entry refers to earlier ones only, it is flat if it is a union or an intersection, and no earlier
entry equals it. A list that starts with the well-known types is accepted exactly if all entries are
sound, and otherwise the fault that is told is that of the first entry which is not. At one entry a
dangling reference is told before an irregular member, and that before an equal entry.
-/

set_option autoImplicit false

namespace ConditionLint.Table

/-!
## Faults told by the list alone
-/

/-- The member is a union in a union, or an intersection in an intersection. -/
def IsNested (ds : List Descriptor) (composite : Composite) (member : TypeId) : Prop :=
  ∃ d inner, ds[member.index]? = some d ∧ composite? d = some (composite, inner)

/-- What is wrong with one member. -/
inductive Misfit (ds : List Descriptor) : Composite → TypeId → Irregularity → Prop where
  | nested {composite member} : IsNested ds composite member → Misfit ds composite member .nested
  | never : ¬ IsNested ds .union .never → Misfit ds .union .never .never

/-- What is wrong with the members of a union or intersection: there are too few, or there is a
first one that does not fit. -/
inductive Irregular (ds : List Descriptor) (composite : Composite) (members : List TypeId) :
    Irregularity → Prop where
  | fewerThanTwo : members.length < 2 → Irregular ds composite members .fewerThanTwo
  | member {front member rest irregularity} :
      2 ≤ members.length → members = front ++ member :: rest →
      (∀ other ∈ front, ∀ reason, ¬ Misfit ds composite other reason) →
      Misfit ds composite member irregularity → Irregular ds composite members irregularity

/-- An entry that a table can have at its place in the list. -/
structure SoundAt (ds : List Descriptor) (place : Nat) (d : Descriptor) : Prop where
  references_lt : ∀ target ∈ d.references, target.index < place
  members : ∀ composite members, composite? d = some (composite, members) →
    2 ≤ members.length ∧ ∀ member ∈ members,
      ¬ IsNested ds composite member ∧ (composite = .union → member ≠ .never)
  fresh : ∀ earlier < place, ds[earlier]? ≠ some d

/-- The fault of an entry that is not sound, where all entries before it are. -/
inductive EntryFault (ds : List Descriptor) (place : Nat) (d : Descriptor) : TableFault → Prop where
  | danglingReference {front target rest} :
      d.references = front ++ target :: rest → (∀ other ∈ front, other.index < place) →
      place ≤ target.index → EntryFault ds place d (.danglingReference place target)
  | unnormalized {composite members irregularity} :
      (∀ target ∈ d.references, target.index < place) →
      composite? d = some (composite, members) → Irregular ds composite members irregularity →
      EntryFault ds place d (.unnormalized place composite irregularity)
  | duplicate {first} :
      (∀ target ∈ d.references, target.index < place) →
      (∀ composite members, composite? d = some (composite, members) →
        ∀ irregularity, ¬ Irregular ds composite members irregularity) →
      first < place → ds[first]? = some d →
      (∀ other < place, ds[other]? = some d → other = first) →
      EntryFault ds place d (.duplicate place ⟨first⟩)

/-- The fault of a list: it is too short, it differs from the well-known types at a first place, or
it has a first entry that is not sound. -/
inductive Blames (ds : List Descriptor) : TableFault → Prop where
  | missingWellKnown :
      ds.length < wellKnown.length → Blames ds (.missingWellKnown ds.length)
  | wellKnownMismatch {place expected} :
      wellKnown.length ≤ ds.length → wellKnown[place]? = some expected →
      ds[place]? ≠ some expected → (∀ earlier < place, ds[earlier]? = wellKnown[earlier]?) →
      Blames ds (.wellKnownMismatch place expected)
  | entry {place d fault} :
      wellKnown <+: ds → ds[place]? = some d →
      (∀ earlier < place, ∀ e, ds[earlier]? = some e → SoundAt ds earlier e) →
      EntryFault ds place d fault → Blames ds fault

variable {t : Table} {d : Descriptor} {ds front rest : List Descriptor} {place : Nat}
  {composite : Composite} {member : TypeId} {members : List TypeId} {irregularity : Irregularity}
  {fault : TableFault}

/-!
## Members
-/

theorem misfit_iff : Misfit ds composite member irregularity ↔
    (IsNested ds composite member ∧ irregularity = .nested) ∨
      (¬ IsNested ds composite member ∧ composite = .union ∧ member = .never ∧
        irregularity = .never) := by
  constructor
  · intro misfit
    cases misfit with
    | nested nested => exact .inl ⟨nested, rfl⟩
    | never outer => exact .inr ⟨outer, rfl, rfl, rfl⟩
  · rintro (⟨nested, rfl⟩ | ⟨outer, rfl, rfl, rfl⟩)
    · exact .nested nested
    · exact .never outer

private theorem forall_not_misfit_iff :
    (∀ irregularity, ¬ Misfit ds composite member irregularity) ↔
      ¬ IsNested ds composite member ∧ (composite = .union → member ≠ .never) := by
  constructor
  · intro fits
    have outer : ¬ IsNested ds composite member := fun nested => fits _ (.nested nested)
    refine ⟨outer, fun union never => ?_⟩
    subst union never
    exact fits _ (.never outer)
  · rintro ⟨outer, plain⟩ irregularity misfit
    cases misfit with
    | nested nested => exact outer nested
    | never => exact plain rfl rfl

theorem memberIrregularity?_eq_some_iff (entry : t.get? member = ds[member.index]?) :
    t.memberIrregularity? composite member = some irregularity ↔
      Misfit ds composite member irregularity := by
  rw [misfit_iff]
  unfold memberIrregularity? IsNested
  rw [entry]
  cases ds[member.index]? with
  | none => cases composite <;> simp [eq_comm]
  | some d => cases composite <;> cases d <;> simp [composite?, eq_comm]

theorem memberIrregularity?_eq_none_iff (entry : t.get? member = ds[member.index]?) :
    t.memberIrregularity? composite member = none ↔
      ∀ irregularity, ¬ Misfit ds composite member irregularity := by
  rw [Option.eq_none_iff_forall_ne_some]
  exact forall_congr' fun irregularity => not_congr (memberIrregularity?_eq_some_iff entry)

theorem irregularity?_eq_some_iff
    (entries : ∀ member ∈ members, t.get? member = ds[member.index]?) :
    t.irregularity? composite members = some irregularity ↔
      Irregular ds composite members irregularity := by
  unfold irregularity?
  constructor
  · intro found
    split at found
    · rename_i few
      cases found
      exact .fewerThanTwo few
    · rename_i several
      obtain ⟨front, member, rest, rfl, misfit, fits⟩ := List.findSome?_eq_some_iff.mp found
      refine .member (Nat.le_of_not_lt several) rfl (fun other included => ?_) ?_
      · exact (memberIrregularity?_eq_none_iff (entries other (by simp [included]))).mp
          (fits other included)
      · exact (memberIrregularity?_eq_some_iff (entries member (by simp))).mp misfit
  · intro irregular
    cases irregular with
    | fewerThanTwo few => rw [if_pos few]
    | @member front member rest _ several split fits misfit =>
        subst split
        rw [if_neg (Nat.not_lt.mpr several)]
        refine List.findSome?_eq_some_iff.mpr
          ⟨front, member, rest, rfl, ?_, fun other included => ?_⟩
        · exact (memberIrregularity?_eq_some_iff (entries member (by simp))).mpr misfit
        · exact (memberIrregularity?_eq_none_iff (entries other (by simp [included]))).mpr
            (fits other included)

/-!
## Entries
-/

private theorem entries_ofList (ds : List Descriptor) : (ofList ds).entries.toList = ds := by
  simp [ofList, entries_foldl_push, empty]

private theorem size_ofList (ds : List Descriptor) : (ofList ds).size = ds.length := by
  rw [size, ← Array.length_toList, entries_ofList]

private theorem get?_ofList (ds : List Descriptor) (id : TypeId) :
    (ofList ds).get? id = ds[id.index]? := by
  rw [get?, ← Array.getElem?_toList, entries_ofList]

private theorem getElem?_front_iff :
    front[place]? = some d ↔ place < front.length ∧ (front ++ rest)[place]? = some d := by
  constructor
  · intro found
    have bound := (List.getElem?_eq_some_iff.mp found).1
    exact ⟨bound, by rwa [List.getElem?_append_left bound]⟩
  · intro ⟨bound, found⟩
    rwa [List.getElem?_append_left bound] at found

private theorem get?_ofList_append (bound : member.index < front.length) :
    (ofList front).get? member = (front ++ rest)[member.index]? := by
  rw [get?_ofList, List.getElem?_append_left bound]

private theorem lt_of_composite? (below : ∀ target ∈ d.references, target.index < place)
    (combined : composite? d = some (composite, members)) :
    ∀ member ∈ members, member.index < place := by
  rwa [mem_references_of_composite? combined] at below

private theorem ofList_concat (ds : List Descriptor) (d : Descriptor) :
    ofList (ds ++ [d]) = (ofList ds).push d := by
  simp [ofList]

/-- The check of an entry tells a dangling reference, or else an irregularity, or else an equal
entry. -/
theorem entryFault?_eq_some_iff :
    t.entryFault? d = some fault ↔
      (∃ target, d.references.find? (t.size ≤ ·.index) = some target ∧
          .danglingReference t.size target = fault) ∨
        (d.references.find? (t.size ≤ ·.index) = none ∧
          ((∃ composite members irregularity, composite? d = some (composite, members) ∧
              t.irregularity? composite members = some irregularity ∧
              .unnormalized t.size composite irregularity = fault) ∨
            ((∀ composite members, composite? d = some (composite, members) →
                t.irregularity? composite members = none) ∧
              ∃ first, t.ids[d]? = some first ∧ .duplicate t.size first = fault))) := by
  unfold entryFault?
  cases d.references.find? (t.size ≤ ·.index) with
  | some target => simp
  | none =>
      cases combined : composite? d with
      | none => simp
      | some pair =>
          obtain ⟨composite, members⟩ := pair
          cases found : t.irregularity? composite members <;> simp [found, and_assoc]

/-- The check of the entry after sound ones tells its fault. -/
theorem entryFault?_ofList_iff (regular : (ofList front).Regular) (rest : List Descriptor) :
    (ofList front).entryFault? d = some fault ↔
      EntryFault (front ++ d :: rest) front.length d fault := by
  rw [entryFault?_eq_some_iff, size_ofList]
  have noDangling : d.references.find? (fun target => front.length ≤ target.index) = none ↔
      ∀ target ∈ d.references, target.index < front.length := by simp
  have reasons (below : ∀ target ∈ d.references, target.index < front.length)
      {composite : Composite} {members : List TypeId}
      (combined : composite? d = some (composite, members)) {irregularity : Irregularity} :
      (ofList front).irregularity? composite members = some irregularity ↔
        Irregular (front ++ d :: rest) composite members irregularity :=
    irregularity?_eq_some_iff fun member included =>
      get?_ofList_append (lt_of_composite? below combined member included)
  have atPlace {place : Nat} : (ofList front).get? ⟨place⟩ = some d ↔
      place < front.length ∧ (front ++ d :: rest)[place]? = some d := by
    rw [get?_ofList]
    exact getElem?_front_iff
  -- Both sides are in the order of the checks: reference, members, equal entry.
  constructor
  · rintro (⟨target, found, rfl⟩ | ⟨noneDangling, others⟩)
    · obtain ⟨dangling, before, after, split, fine⟩ := List.find?_eq_some_iff_append.mp found
      exact .danglingReference split (by simpa using fine) (by simpa using dangling)
    have below := noDangling.mp noneDangling
    rcases others with ⟨composite, members, irregularity, combined, found, rfl⟩ |
      ⟨regularMembers, first, found, rfl⟩
    · exact .unnormalized below combined ((reasons below combined).mp found)
    · have here := regular.ids.mp found
      obtain ⟨bound, equal⟩ := atPlace.mp here
      refine .duplicate below (fun composite members combined irregularity irregular => ?_) bound
        equal fun other before same => ?_
      · rw [← reasons below combined, regularMembers composite members combined] at irregular
        cases irregular
      · exact congrArg TypeId.index (regular.get?_injective (atPlace.mpr ⟨before, same⟩) here)
  · intro faulty
    cases faulty with
    | @danglingReference before target after split fine dangling =>
        refine .inl ⟨target, List.find?_eq_some_iff_append.mpr ⟨?_, before, after, split, ?_⟩, rfl⟩
        · simpa using dangling
        · simpa using fine
    | unnormalized below combined irregular =>
        exact .inr ⟨noDangling.mpr below,
          .inl ⟨_, _, _, combined, (reasons below combined).mpr irregular, rfl⟩⟩
    | @duplicate first below fits before equal _ =>
        refine .inr ⟨noDangling.mpr below, .inr ⟨fun composite members combined => ?_, ⟨first⟩, ?_,
          rfl⟩⟩
        · rw [Option.eq_none_iff_forall_ne_some]
          intro irregularity found
          exact fits composite members combined irregularity ((reasons below combined).mp found)
        · exact regular.ids.mpr (atPlace.mpr ⟨before, equal⟩)

/-- An entry can follow the table of the entries before it exactly if it is sound at its place. -/
theorem follows_ofList_iff :
    (ofList front).Follows d ↔ SoundAt (front ++ d :: rest) front.length d := by
  have fits (below : ∀ target ∈ d.references, target.index < front.length)
      {composite : Composite} {members : List TypeId}
      (combined : composite? d = some (composite, members)) :
      (ofList front).irregularity? composite members = none ↔
        2 ≤ members.length ∧ ∀ member ∈ members,
          ¬ IsNested (front ++ d :: rest) composite member ∧
            (composite = .union → member ≠ .never) := by
    rw [irregularity?_eq_none_iff]
    refine and_congr_right fun _ => forall₂_congr fun member included => ?_
    have bound := lt_of_composite? below combined member included
    rw [memberIrregularity?_eq_none_iff (get?_ofList_append bound), forall_not_misfit_iff]
  have fresh : d ∉ (ofList front).entries.toList ↔
      ∀ earlier < front.length, (front ++ d :: rest)[earlier]? ≠ some d := by
    rw [entries_ofList]
    constructor
    · intro absent earlier bound same
      exact absent (List.mem_of_getElem? (getElem?_front_iff.mpr ⟨bound, same⟩))
    · intro different included
      obtain ⟨earlier, here⟩ := List.mem_iff_getElem?.mp included
      obtain ⟨bound, same⟩ := getElem?_front_iff.mp here
      exact different earlier bound same
  constructor
  · intro follows
    have below : ∀ target ∈ d.references, target.index < front.length := by
      simpa [size_ofList] using follows.references_lt
    exact ⟨below, fun composite members combined =>
      (fits below combined).mp (follows.members composite members combined),
      fresh.mp follows.fresh⟩
  · intro sound
    refine ⟨?_, fun composite members combined =>
      (fits sound.references_lt combined).mpr (sound.members composite members combined),
      fresh.mpr sound.fresh⟩
    simpa [size_ofList] using sound.references_lt

/-!
## Whole lists
-/

/-- Entries can follow one after the other exactly if each is sound at its place. -/
theorem followAll_ofList_iff {mid : List Descriptor} (rest : List Descriptor) :
    (ofList front).FollowAll mid ↔ ∀ place d, mid[place]? = some d →
      SoundAt (front ++ mid ++ rest) (front.length + place) d := by
  induction mid generalizing front with
  | nil => simp [FollowAll]
  | cons first mid ih =>
      have moved : front ++ [first] ++ mid ++ rest = front ++ (first :: mid) ++ rest := by simp
      have here : (ofList front).Follows first ↔
          SoundAt (front ++ (first :: mid) ++ rest) front.length first := by
        rw [List.append_assoc]
        exact follows_ofList_iff
      rw [FollowAll, here, ← ofList_concat, ih, moved]
      constructor
      · rintro ⟨sound, others⟩ place d found
        cases place with
        | zero =>
            cases found
            exact sound
        | succ place =>
            have later := others place d found
            rwa [List.length_append, List.length_singleton, Nat.add_right_comm] at later
      · intro sound
        refine ⟨sound 0 first rfl, fun place d found => ?_⟩
        have later := sound (place + 1) d found
        rwa [List.length_append, List.length_singleton, Nat.add_right_comm]

theorem followAll_iff (rest : List Descriptor) :
    empty.FollowAll front ↔
      ∀ place d, front[place]? = some d → SoundAt (front ++ rest) place d := by
  have same := @followAll_ofList_iff [] front rest
  simpa [ofList] using same

/-- Entries are refused for the fault of the first that cannot follow those before it. -/
theorem extend?_eq_error_iff (regular : t.Regular) :
    t.extend? ds = .error fault ↔ ∃ before d after, ds = before ++ d :: after ∧
      t.FollowAll before ∧ (before.foldl push t).entryFault? d = some fault := by
  -- The entries before are read in, so the table that the next one is checked against is regular.
  induction ds generalizing t with
  | nil => simp [extend?]
  | cons first rest ih =>
      rw [extend?]
      cases faulty : t.entryFault? first with
      | some reason =>
          constructor
          · intro refused
            cases refused
            exact ⟨[], first, rest, rfl, trivial, faulty⟩
          · rintro ⟨before, d, after, split, follow, found⟩
            cases before with
            | nil =>
                cases split
                cases faulty.symm.trans found
                rfl
            | cons other before =>
                cases split
                rw [regular.entryFault?_eq_none_iff.mpr follow.1] at faulty
                cases faulty
      | none =>
          have follows := regular.entryFault?_eq_none_iff.mp faulty
          rw [ih (regular.push follows)]
          constructor
          · rintro ⟨before, d, after, rfl, follow, found⟩
            exact ⟨first :: before, d, after, rfl, ⟨follows, follow⟩, found⟩
          · rintro ⟨before, d, after, split, follow, found⟩
            cases before with
            | nil =>
                cases split
                cases faulty.symm.trans found
            | cons other before =>
                cases split
                exact ⟨before, d, after, rfl, follow.2, found⟩

theorem mismatch?_eq_some_iff {expected found : List Descriptor} {index : Nat}
    (enough : expected.length ≤ found.length) :
    mismatch? index expected found = some fault ↔
      ∃ place e, expected[place]? = some e ∧ found[place]? ≠ some e ∧
        (∀ earlier < place, found[earlier]? = expected[earlier]?) ∧
        fault = .wellKnownMismatch (index + place) e := by
  induction expected generalizing found index with
  | nil => simp [mismatch?]
  | cons first expected ih =>
      cases found with
      | nil => simp at enough
      | cons other found =>
          by_cases same : other = first
          · subst same
            rw [mismatch?, if_pos rfl, ih (Nat.le_of_succ_le_succ enough)]
            constructor
            · rintro ⟨place, e, known, differs, agree, rfl⟩
              refine ⟨place + 1, e, known, differs, fun earlier bound => ?_, ?_⟩
              · cases earlier with
                | zero => rfl
                | succ earlier => exact agree earlier (Nat.lt_of_succ_lt_succ bound)
              · rw [Nat.add_right_comm, Nat.add_assoc]
            · rintro ⟨place, e, known, differs, agree, rfl⟩
              cases place with
              | zero => exact absurd known differs
              | succ place =>
                  refine ⟨place, e, known, differs, fun earlier bound => ?_, ?_⟩
                  · exact agree (earlier + 1) (Nat.succ_lt_succ bound)
                  · rw [Nat.add_right_comm, Nat.add_assoc]
          · rw [mismatch?, if_neg same]
            constructor
            · intro told
              cases told
              exact ⟨0, first, rfl, by simpa using same, by simp, rfl⟩
            · rintro ⟨place, e, known, differs, agree, rfl⟩
              cases place with
              | zero =>
                  cases known
                  rfl
              | succ place =>
                  have start := agree 0 (Nat.succ_pos place)
                  exact absurd (Option.some.inj start) same

private theorem split_of_getElem? (found : ds[place]? = some d) :
    ∃ before after, ds = before ++ d :: after ∧ before.length = place := by
  obtain ⟨bound, rfl⟩ := List.getElem?_eq_some_iff.mp found
  refine ⟨ds.take place, ds.drop (place + 1), ?_, List.length_take_of_le (Nat.le_of_lt bound)⟩
  rw [List.getElem_cons_drop, List.take_append_drop]

/-- A list that starts with the well-known types is refused for the fault of its first entry that is
not sound. -/
theorem extend?_empty_eq_error_iff (starts : wellKnown <+: ds) :
    empty.extend? ds = .error fault ↔ Blames ds fault := by
  rw [extend?_eq_error_iff regular_empty]
  constructor
  · rintro ⟨before, d, after, rfl, follow, found⟩
    have faulty := (entryFault?_ofList_iff (follow.regular regular_empty) after).mp found
    exact .entry starts (by simp) (fun earlier bound e entry =>
      (followAll_iff _).mp follow earlier e (getElem?_front_iff.mpr ⟨bound, entry⟩)) faulty
  · intro blamed
    cases blamed with
    | missingWellKnown short => exact absurd starts.length_le (Nat.not_le.mpr short)
    | @wellKnownMismatch place e _ known differs _ =>
        obtain ⟨rest, rfl⟩ := starts
        rw [List.getElem?_append_left (List.getElem?_eq_some_iff.mp known).1] at differs
        exact absurd known differs
    | @entry place d _ _ entry sound faulty =>
        obtain ⟨before, after, rfl, rfl⟩ := split_of_getElem? entry
        have follow : empty.FollowAll before := by
          refine (followAll_iff (d :: after)).mpr fun earlier e found => ?_
          obtain ⟨bound, found⟩ := getElem?_front_iff.mp found
          exact sound earlier bound e found
        exact ⟨before, d, after, rfl, follow,
          (entryFault?_ofList_iff (follow.regular regular_empty) after).mpr faulty⟩

theorem ofDescriptors?_eq_error_iff : ofDescriptors? ds = .error fault ↔ Blames ds fault := by
  unfold ofDescriptors?
  by_cases short : ds.length < wellKnown.length
  · rw [if_pos short]
    constructor
    · intro refused
      cases refused
      exact .missingWellKnown short
    · intro blamed
      cases blamed with
      | missingWellKnown => rfl
      | wellKnownMismatch enough => exact absurd short (Nat.not_lt.mpr enough)
      | entry starts => exact absurd short (Nat.not_lt.mpr starts.length_le)
  · have enough : wellKnown.length ≤ ds.length := Nat.le_of_not_lt short
    rw [if_neg short]
    cases start : mismatch? 0 wellKnown ds with
    | none => exact extend?_empty_eq_error_iff ((mismatch?_eq_none_iff enough).mp start)
    | some mismatch =>
        have noPrefix : ¬ wellKnown <+: ds := by
          rw [← @mismatch?_eq_none_iff _ _ 0 enough, start]
          simp
        constructor
        · intro refused
          cases refused
          obtain ⟨place, e, known, differs, agree, rfl⟩ := (mismatch?_eq_some_iff enough).mp start
          rw [Nat.zero_add]
          exact .wellKnownMismatch enough known differs agree
        · intro blamed
          cases blamed with
          | missingWellKnown short => exact absurd short (Nat.not_lt.mpr enough)
          | @wellKnownMismatch place e _ known differs agree =>
              have same := (@mismatch?_eq_some_iff _ _ _ 0 enough).mpr
                ⟨place, e, known, differs, agree, by rw [Nat.zero_add]⟩
              cases start.symm.trans same
              rfl
          | entry starts => exact absurd starts noPrefix

/-- A list is accepted exactly if it starts with the well-known types and every entry is sound, and
refused for exactly the fault that it is to blame for. The entries of the table are the list, and
interning one of them finds it at its place and adds nothing. -/
theorem ofDescriptors?_outcome (ds : List Descriptor) :
    (∀ fault, ofDescriptors? ds = .error fault ↔ Blames ds fault) ∧
      ((∃ t, ofDescriptors? ds = .ok t) ↔
        wellKnown <+: ds ∧ ∀ place d, ds[place]? = some d → SoundAt ds place d) ∧
      ∀ t, ofDescriptors? ds = .ok t →
        t.entries.toList = ds ∧ ∀ place d, ds[place]? = some d → t.intern d = (t, ⟨place⟩) := by
  refine ⟨fun fault => ofDescriptors?_eq_error_iff, ?_, fun t accepted => ?_⟩
  · have sound : empty.FollowAll ds ↔ ∀ place d, ds[place]? = some d → SoundAt ds place d := by
      have whole := @followAll_iff ds []
      rwa [List.append_nil] at whole
    simp only [ofDescriptors?_eq_ok_iff, sound]
    constructor
    · rintro ⟨t, starts, sound, _⟩
      exact ⟨starts, sound⟩
    · rintro ⟨starts, sound⟩
      exact ⟨ofList ds, starts, sound, rfl⟩
  · have entries := entries_of_ofDescriptors? accepted
    refine ⟨entries, fun place d found => ?_⟩
    have indexed := (wellFormed_of_ofDescriptors? accepted).indexed
    refine indexed.intern_of_get? ?_
    rwa [get?, ← Array.getElem?_toList, entries]

namespace Nested

/-!
A list with a union in a union, in front of an equal entry and a dangling reference.
-/

def sound : List Descriptor :=
  wellKnown ++ [.array .string]

def descriptors : List Descriptor :=
  sound ++ [.union [.null, .boolean, .never], .array .string, .array ⟨40⟩]

private theorem followAll_sound : empty.FollowAll sound := by
  decide

private theorem accepted_sound : ofDescriptors? sound = .ok (ofList sound) :=
  ofDescriptors?_eq_ok_iff.mpr ⟨⟨_, rfl⟩, followAll_sound, rfl⟩

private theorem entryFault_union :
    EntryFault descriptors 15 (.union [.null, .boolean, .never])
      (.unnormalized 15 .union .nested) := by
  refine .unnormalized (by decide) rfl ?_
  refine .member (by decide) (rfl : _ = [TypeId.null] ++ .boolean :: [.never]) ?_ ?_
  · intro other included
    refine forall_not_misfit_iff.mpr ?_
    cases List.mem_singleton.mp included
    refine ⟨?_, fun _ => by decide⟩
    rintro ⟨d, inner, entry, combined⟩
    cases entry
    cases combined
  · exact .nested ⟨_, _, rfl, rfl⟩

private theorem blames_union : Blames descriptors (.unnormalized 15 .union .nested) := by
  refine .entry ⟨_, rfl⟩ rfl (fun earlier bound e found => ?_) entryFault_union
  exact (followAll_iff _).mp followAll_sound earlier e (getElem?_front_iff.mpr ⟨bound, found⟩)

end Nested

theorem nested_refused :
    ofDescriptors? Nested.sound = .ok (ofList Nested.sound) ∧
      (ofList Nested.sound).intern (.array .string) = (ofList Nested.sound, ⟨14⟩) ∧
      ofDescriptors? Nested.descriptors = .error (.unnormalized 15 .union .nested) := by
  refine ⟨Nested.accepted_sound, ?_, ?_⟩
  · exact ((ofDescriptors?_outcome Nested.sound).2.2 _ Nested.accepted_sound).2 14 _ rfl
  · exact ((ofDescriptors?_outcome Nested.descriptors).1 _).mpr Nested.blames_union

end ConditionLint.Table
