import PassScheduler.Pass.Roster
import PassScheduler.Proofs.Registry.Reordering

/-!
Contract: the parts of a roster stay in step, whatever calls are made.

Owns:
- what it means that passes, index and numbers are in step and that no accepted descriptor has a
  mistake;
- that a call is refused iff accepting its pass would end that, and then changes nothing;
- that a look-up in the index is a search among the accepted passes, so that both ways of building
  a registry agree, and every pass of a registry is found by its name.

Does not own: which configurations are sound.
-/

namespace PassScheduler

variable {Instance : Type}

namespace Descriptor

/-- What a descriptor must meet whatever stands beside it: it does not require itself, and neither of
its lists has a name twice. -/
structure Proper (descriptor : Descriptor) : Prop where
  requires_self : descriptor.name ∉ descriptor.requires
  requires : descriptor.requires.Nodup
  invalidates : descriptor.invalidates.Nodup

theorem mistake?_eq_none_iff (descriptor : Descriptor) :
    descriptor.mistake? = none ↔ descriptor.Proper := by
  have proper : descriptor.Proper ↔ descriptor.name ∉ descriptor.requires ∧
      descriptor.requires.Nodup ∧ descriptor.invalidates.Nodup :=
    ⟨fun ⟨other, once, onceToo⟩ => ⟨other, once, onceToo⟩,
      fun ⟨other, once, onceToo⟩ => ⟨other, once, onceToo⟩⟩
  rw [proper, ← firstRepeat?_eq_none_iff, ← firstRepeat?_eq_none_iff, mistake?]
  split
  · simp_all
  · cases firstRepeat? [] descriptor.requires <;> simp_all

end Descriptor

namespace Roster

variable {roster : Roster Instance}

def names (roster : Roster Instance) : List String :=
  roster.passes.map fun registration => registration.descriptor.name

/-- The parts of a roster agree: its names are distinct, the index holds the place of each name among
the passes and nothing else, and the next number is that of the next place. No accepted descriptor
has a mistake. -/
structure InStep (roster : Roster Instance) : Prop where
  names_nodup : roster.names.Nodup
  proper : ∀ registration ∈ roster.passes, registration.descriptor.Proper
  index : ∀ name id, roster.index.get? name = some id ↔ roster.names[id]? = some name
  next : roster.numbers.next = roster.passes.length

theorem inStep_empty : (empty : Roster Instance).InStep where
  names_nodup := List.nodup_nil
  proper := by simp [empty]
  index := by simp [empty, names]
  next := rfl

@[simp] theorem names_accept (roster : Roster Instance) (registration : Registration Instance) :
    (roster.accept registration).names = roster.names ++ [registration.descriptor.name] := by
  simp [names, accept]

theorem InStep.mem_names_iff (inStep : roster.InStep) {name : String} :
    name ∈ roster.names ↔ (roster.index.get? name).isSome := by
  rw [List.mem_iff_getElem?, Option.isSome_iff_exists]
  simp only [inStep.index]

theorem InStep.length_names (inStep : roster.InStep) :
    roster.names.length = roster.numbers.next := by
  rw [inStep.next, names, List.length_map]

/-- What the index says once a pass was accepted. -/
theorem index_accept (roster : Roster Instance) (registration : Registration Instance)
    (name : String) :
    (roster.accept registration).index.get? name =
      if name = registration.descriptor.name then some roster.numbers.next
      else roster.index.get? name := by
  by_cases same : name = registration.descriptor.name
  · rw [if_pos same, same]
    exact ResultTable.get?_insert_self _ _ _
  · rw [if_neg same]
    exact ResultTable.get?_insert_of_ne _ (Ne.symm same) _

private theorem getElem?_concat_iff {names : List String} {added name : String} {id : PassId} :
    (names ++ [added])[id]? = some name ↔
      names[id]? = some name ∨ id = names.length ∧ added = name := by
  rcases Nat.lt_trichotomy id names.length with inside | rfl | beyond
  · simp [List.getElem?_append_left inside, inside.ne]
  · simp
  · have outside : (names ++ [added])[id]? = none :=
      List.getElem?_eq_none (by simpa using Nat.succ_le_of_lt beyond)
    simp [outside, List.getElem?_eq_none (Nat.le_of_lt beyond), beyond.ne']

/-- A proper descriptor with a new name keeps a roster in step. -/
theorem InStep.accept (inStep : roster.InStep) {registration : Registration Instance}
    (fresh : registration.descriptor.name ∉ roster.names)
    (proper : registration.descriptor.Proper) :
    (roster.accept registration).InStep where
  names_nodup := by
    rw [names_accept, List.nodup_append]
    refine ⟨inStep.names_nodup, List.nodup_singleton _, ?_⟩
    rintro name known _ added rfl
    exact fresh (List.mem_singleton.1 added ▸ known)
  proper := by
    intro accepted member
    rcases List.mem_append.1 member with member | member
    · exact inStep.proper accepted member
    · rw [List.mem_singleton.1 member]
      exact proper
  index := by
    intro name id
    rw [index_accept, names_accept, getElem?_concat_iff, inStep.length_names]
    split
    · rename_i same
      have unknown : ¬ roster.names[id]? = some name :=
        fun found => fresh (same ▸ List.mem_of_getElem? found)
      rw [Option.some.injEq, or_iff_right unknown, and_iff_left same.symm, eq_comm]
    · rename_i other
      simp [inStep.index, Ne.symm other]
  next := by
    simp [Roster.accept, PassNumbers.take, inStep.next]

/-- A pass is refused iff accepting it would bring the roster out of step. -/
theorem InStep.refusal?_eq_none_iff (inStep : roster.InStep) (registration : Registration Instance) :
    roster.refusal? registration.descriptor = none ↔ (roster.accept registration).InStep := by
  have accepted : roster.refusal? registration.descriptor = none ↔
      registration.descriptor.name ∉ roster.names ∧ registration.descriptor.Proper := by
    rw [inStep.mem_names_iff, ← Descriptor.mistake?_eq_none_iff, refusal?]
    split <;> simp_all
  rw [accepted]
  constructor
  · rintro ⟨fresh, proper⟩
    exact inStep.accept fresh proper
  · intro stays
    have distinct := stays.names_nodup
    rw [names_accept, List.nodup_append] at distinct
    refine ⟨fun known => distinct.2.2 _ known _ (List.mem_singleton_self _) rfl, ?_⟩
    exact stays.proper registration (by simp [Roster.accept])

/-! ## Calls -/

/-- A call is answered in one of two ways, and only an accepted one changes anything. -/
theorem InStep.register (inStep : roster.InStep) (registration : Registration Instance) :
    ((roster.accept registration).InStep ∧
        roster.register registration = (.ok (), roster.accept registration)) ∨
      ¬ (roster.accept registration).InStep ∧
        ∃ error, roster.register registration = (.error error, roster) := by
  have decided := inStep.refusal?_eq_none_iff registration
  unfold Roster.register
  cases refused : roster.refusal? registration.descriptor with
  | none => exact .inl ⟨decided.1 refused, rfl⟩
  | some error =>
      refine .inr ⟨fun stays => ?_, error, rfl⟩
      rw [decided.2 stays] at refused
      cases refused

theorem InStep.register_inStep (inStep : roster.InStep) (registration : Registration Instance) :
    (roster.register registration).2.InStep := by
  rcases inStep.register registration with ⟨stays, accepted⟩ | ⟨_, error, refused⟩
  · rw [accepted]
    exact stays
  · rw [refused]
    exact inStep

/-! ## Look-ups -/

/-- The accepted passes without the index. -/
def registrations (roster : Roster Instance) : Registrations Instance :=
  ⟨roster.passes⟩

/-- A look-up in the index finds what a search among the accepted passes finds. -/
theorem InStep.index_eq (inStep : roster.InStep) (name : String) :
    roster.index.get? name = roster.registrations.id? name := by
  cases found : roster.registrations.id? name with
  | none =>
      have unknown : name ∉ roster.names := Registrations.id?_eq_none_iff.1 found
      rwa [inStep.mem_names_iff, Option.isSome_iff_ne_none, not_not] at unknown
  | some id =>
      obtain ⟨inside, isNamed, _⟩ := List.findIdx?_eq_some_iff_getElem.1 found
      have there : roster.passes[id]? = some roster.registrations.accepted[id] :=
        List.getElem?_eq_getElem inside
      rw [inStep.index, names, List.getElem?_map, there]
      simpa using isNamed

theorem InStep.refusal?_eq (inStep : roster.InStep) (descriptor : Descriptor) :
    roster.registrations.refusal? descriptor = roster.refusal? descriptor := by
  rw [refusal?, inStep.index_eq]
  rfl

theorem InStep.resolve_eq (inStep : roster.InStep) (name : String) (relation : Relation)
    (references : List String) :
    roster.resolve name relation references =
      roster.registrations.resolveNames name relation references := by
  unfold resolve
  induction references with
  | nil => rfl
  | cons reference rest inductionHypothesis =>
      rw [List.mapM_cons, Registrations.resolveNames, inductionHypothesis, inStep.index_eq]
      cases roster.registrations.id? reference with
      | none => rfl
      | some id => cases roster.registrations.resolveNames name relation rest <;> rfl

theorem InStep.resolvePass_eq (inStep : roster.InStep) (registration : Registration Instance) :
    roster.resolvePass registration = roster.registrations.resolvePass registration := by
  simp only [resolvePass, Registrations.resolvePass, inStep.resolve_eq]
  cases roster.registrations.resolveNames registration.descriptor.name .requires
      registration.descriptor.requires with
  | error error => rfl
  | ok requirements =>
      cases roster.registrations.resolveNames registration.descriptor.name .invalidates
          registration.descriptor.invalidates <;> rfl

/-- With the index the same registry is built as by searching for names, or the same error found. -/
theorem InStep.build_eq (inStep : roster.InStep) :
    roster.build = roster.registrations.build := by
  have resolved : ∀ passes, passes.mapM roster.resolvePass =
      roster.registrations.resolvePasses passes := by
    intro passes
    induction passes with
    | nil => rfl
    | cons registration rest inductionHypothesis =>
        rw [List.mapM_cons, Registrations.resolvePasses, inductionHypothesis,
          inStep.resolvePass_eq]
        cases roster.registrations.resolvePass registration with
        | error error => rfl
        | ok pass => cases roster.registrations.resolvePasses rest <;> rfl
  have same : roster.registrations.accepted = roster.passes := rfl
  rw [build, Registrations.build, same, resolved]
  cases roster.registrations.resolvePasses roster.passes <;> rfl

/-! ## Rosters that came about by calls -/

theorem ofCalls_concat (calls : List (Registration Instance)) (call : Registration Instance) :
    ofCalls (calls ++ [call]) = ((ofCalls calls).register call).2 := by
  simp [ofCalls]

theorem inStep_ofCalls (calls : List (Registration Instance)) : (ofCalls calls).InStep := by
  induction calls using List.reverseRecOn with
  | nil => exact inStep_empty
  | append_singleton calls call inductionHypothesis =>
      rw [ofCalls_concat]
      exact inductionHypothesis.register_inStep call

/-- The passes of a roster could have been registered one by one without an index. -/
theorem registered_ofCalls (calls : List (Registration Instance)) :
    (ofCalls calls).registrations.Registered := by
  induction calls using List.reverseRecOn with
  | nil => exact .empty
  | append_singleton calls call inductionHypothesis =>
      have refusal := (inStep_ofCalls calls).refusal?_eq call.descriptor
      rw [ofCalls_concat, register]
      cases accepted : (ofCalls calls).refusal? call.descriptor with
      | some error => exact inductionHypothesis
      | none => exact inductionHypothesis.add call (refusal.trans accepted)

/-- Whatever calls have been made, the parts of the roster are in step; the next call is refused iff
accepting its pass would end that, and then changes nothing. Once a registry is built, every pass
is found by its name, and by names the registry finds what the index holds. -/
theorem ofCalls_inStep (calls : List (Registration Instance)) :
    let roster := ofCalls calls
    roster.InStep ∧
      (∀ call,
        ((roster.accept call).InStep ∧
            roster.register call = (.ok (), roster.accept call)) ∨
          ¬ (roster.accept call).InStep ∧
            ∃ error, roster.register call = (.error error, roster)) ∧
      ∀ registry, roster.build = .ok registry →
        (∀ id descriptor, registry.descriptor? id = some descriptor →
          registry.id? descriptor.name = some id) ∧
        ∀ name, registry.id? name = roster.index.get? name := by
  intro roster
  have inStep : roster.InStep := inStep_ofCalls calls
  refine ⟨inStep, inStep.register, fun registry built => ?_⟩
  rw [inStep.build_eq] at built
  obtain ⟨resolves, _⟩ := Registry.resolves_of_build (registered_ofCalls calls) built
  have looked : ∀ name, registry.id? name = roster.registrations.id? name := resolves.id?_eq
  refine ⟨fun id descriptor found => ?_, fun name => (looked name).trans (inStep.index_eq name).symm⟩
  rw [looked, Registrations.id?_eq_some_iff (registered_ofCalls calls)]
  exact ⟨descriptor, (resolves.descriptor?_eq id).trans found, rfl⟩

/-- Two calls that are accepted with three between them that are not: a name that is taken, a pass
that requires itself, and one that lists a target twice. -/
def muddled : List (Registration Unit) :=
  [⟨.analysis "flow", fun _ => ()⟩, ⟨.transformation "flow", fun _ => ()⟩,
    ⟨(Descriptor.transformation "fold").requiring "fold", fun _ => ()⟩,
    ⟨((Descriptor.transformation "fold").invalidating "flow").invalidating "flow", fun _ => ()⟩,
    ⟨(Descriptor.transformation "fold").requiring "flow", fun _ => ()⟩]

theorem ofCalls_inStep_muddled :
    (ofCalls muddled).names = ["flow", "fold"] ∧ (ofCalls muddled).InStep ∧
      ∃ registry, (ofCalls muddled).build = .ok registry ∧ registry.id? "fold" = some 1 ∧
        (ofCalls muddled).index.get? "fold" = some 1 := by
  obtain ⟨inStep, _, found⟩ := ofCalls_inStep muddled
  have built : ∃ registry descriptor, (ofCalls muddled).build = .ok registry ∧
      registry.descriptor? 1 = some descriptor ∧ descriptor.name = "fold" :=
    ⟨_, _, by cbv, by cbv, rfl⟩
  obtain ⟨registry, descriptor, isBuilt, isSecond, named⟩ := built
  obtain ⟨byName, byIndex⟩ := found registry isBuilt
  have second := byName 1 descriptor isSecond
  rw [named] at second
  exact ⟨by cbv, inStep, registry, isBuilt, second, (byIndex "fold").symm.trans second⟩

end Roster

end PassScheduler
