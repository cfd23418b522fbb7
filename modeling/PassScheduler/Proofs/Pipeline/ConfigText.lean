import Mathlib.Data.List.Permutation
import PassScheduler.Proofs.Json.Value
import PassScheduler.Proofs.Pipeline.ConfigReading

/-!
Contract: which texts give which configurations.

Every configuration is read back from its text. An object that gives some of the three fields, each
once, gives their values and the defaults for the others, in whatever order the fields stand and
however the text is laid out. An object with a field of another name is refused, whatever else is in
it.

Owns:
- what the fields of a text give;
- outlines of configurations, which say what fields are given, and what texts come of them.

Does not own: texts that give the values in a list, and why a text is refused.
-/

namespace PassScheduler

namespace ConfigText

open Json

/-! ## Fields of a text -/

/-- The fields of a text have trees, and with these so much more has been read. -/
def Gives (room : Nat) (fields : List (String × Value)) (read next : Partial) : Prop :=
  ∃ trees, fieldsTrees? room fields = some trees ∧ readFields read trees = .ok next

namespace Gives

variable {room : Nat} {fields others : List (String × Value)} {read next last : Partial}

theorem nil : Gives room [] read read :=
  ⟨[], rfl, rfl⟩

theorem single {key : String} {value : Value} {tree : Tree} (isTree : value.tree? room = some tree)
    (reads : ReadsField read key tree next) :
    Gives room [(key, value)] read next :=
  ⟨[(key, tree)], fieldsTrees?_eq_some_iff.2 (.cons ⟨rfl, isTree⟩ .nil),
    readFields_cons_eq_ok_iff.2 ⟨next, reads, rfl⟩⟩

theorem append (gives : Gives room fields read next) (givesOthers : Gives room others next last) :
    Gives room (fields ++ others) read last := by
  obtain ⟨trees, areTrees, reads⟩ := gives
  obtain ⟨otherTrees, areOtherTrees, readsOthers⟩ := givesOthers
  refine ⟨trees ++ otherTrees, fieldsTrees?_eq_some_iff.2 ?_, readFields_append reads readsOthers⟩
  exact List.rel_append (fieldsTrees?_eq_some_iff.1 areTrees)
    (fieldsTrees?_eq_some_iff.1 areOtherTrees)

theorem perm (gives : Gives room others read last) (perm : fields.Perm others) :
    Gives room fields read last := by
  obtain ⟨trees, areTrees, reads⟩ := gives
  obtain ⟨moved, areMoved, permMoved⟩ := fieldsTrees?_perm perm areTrees
  exact ⟨moved, areMoved, readFields_perm permMoved.symm reads⟩

end Gives

/-- The tree of an object whose fields have trees, if there is room for it. -/
theorem tree?_object {room : Nat} (hasRoom : 0 < room) (fields : List (String × Value)) :
    (Value.object fields).tree? room =
      (fieldsTrees? (room - 1) fields).map fun trees => .object trees .closed := by
  rw [Value.tree?, if_pos hasRoom]

theorem Gives.ofJson {fields : List (String × Value)} {last : Partial}
    (gives : Gives (nestingLimit - 1) fields {} last) {text : String}
    (lays : Lays (Value.object fields).lexemes text.toList) :
    PipelineConfig.ofJson text = .ok last.complete := by
  obtain ⟨trees, areTrees, reads⟩ := gives
  have read := Draft.ofText_lays lays
  rw [tree?_object (by decide), areTrees] at read
  have isDraft : Draft.ofText text = ⟨.object trees .closed, false⟩ := read
  simp only [PipelineConfig.ofJson, isDraft, readConfig, reads]
  rfl

/-- An object that is accepted has only fields of the three known names. -/
theorem known_of_ofJson {fields : List (String × Value)} {text : String} {config : PipelineConfig}
    (lays : Lays (Value.object fields).lexemes text.toList)
    (accepted : PipelineConfig.ofJson text = .ok config) :
    ∀ field ∈ fields, field.1 ∈ ["opt_level", "passes", "mode"] := by
  obtain ⟨read, isRead, -⟩ := bind_eq_ok accepted
  have outcome := Draft.ofText_lays lays
  rw [tree?_object (by decide)] at outcome
  cases areTrees : fieldsTrees? (nestingLimit - 1) fields with
  | none =>
      -- whatever the flaw is and wherever it lies, it would have been met
      rw [areTrees] at outcome
      have flawed : (Draft.ofText text).root.flaw?.isSome := outcome
      rw [flaw?_of_readConfig isRead] at flawed
      cases flawed
  | some trees =>
      rw [areTrees] at outcome
      have isDraft : Draft.ofText text = ⟨.object trees .closed, false⟩ := outcome
      rw [isDraft] at isRead
      obtain ⟨last, reads, -⟩ := bind_eq_ok isRead
      intro field member
      have isName : field.1 ∈ trees.map Prod.fst := by
        rw [← map_fst_of_fieldsTrees? areTrees]
        exact List.mem_map_of_mem member
      obtain ⟨tree, isMember, sameName⟩ := List.mem_map.1 isName
      rw [← sameName]
      exact known_of_readFields reads tree isMember

/-! ## Outlines -/

def ModeKind.name : ModeKind → String
  | .once => "once"
  | .fixedPoint => "fixed_point"

/-- The fields that an object gives for a mode. -/
structure ModeOutline where
  kind : ModeKind
  cap : Option UInt64 := none

namespace ModeOutline

def fields (mode : ModeOutline) : List (String × Value) :=
  ("kind", .string mode.kind.name) ::
    mode.cap.toList.map fun cap => ("max_iterations", .number { whole := cap.toNat })

/-- The mode that is meant. A single run has no use for a cap. -/
def mode (outline : ModeOutline) : RunMode :=
  match outline.kind with
  | .once => .once
  | .fixedPoint => .fixedPoint (outline.cap.getD defaultMaxIterations)

end ModeOutline

/-- Which of its fields an object gives for a configuration, and with what values. -/
structure Outline where
  level : Option Level := none
  passes : Option (Option (List String)) := none
  mode : Option ModeOutline := none

def passesValue : Option (List String) → Value
  | none => .null
  | some names => .array (names.map .string)

namespace Outline

/-- The fields in the usual order, that of a mode with its own fields as they stand. -/
def fields (outline : Outline) (modeFields : List (String × Value)) : List (String × Value) :=
  (outline.level.toList.map fun level => ("opt_level", .number { whole := level.toNat })) ++
    (outline.passes.toList.map fun passes => ("passes", passesValue passes)) ++
    outline.mode.toList.map fun _ => ("mode", .object modeFields)

/-- The given values, and the defaults for the rest. -/
def config (outline : Outline) : PipelineConfig where
  level := outline.level.getD defaultLevel
  passes := outline.passes.getD none
  mode := (outline.mode.map ModeOutline.mode).getD .once

/-- The fields of an object give what the outline says, each once and in some order. -/
def GivenBy (outline : Outline) (fields : List (String × Value)) : Prop :=
  ∃ modeFields, (∀ mode ∈ outline.mode, modeFields.Perm mode.fields) ∧
    fields.Perm (outline.fields modeFields)

end Outline

theorem tree?_natural {n : Nat} (fits : n < UInt64.size) (room : Nat) :
    (Value.number { whole := n }).tree? room = some (.number (.natural n)) := by
  rw [Value.tree?, Numeral.number?_natural fits]
  rfl

theorem readLevel_natural (level : Level) :
    readLevel (.number (.natural level.toNat)) = .ok level := by
  simp [readLevel, readNatural, level.toNat_lt_size, Except.map]

theorem readMaxIterations_natural (cap : UInt64) :
    readMaxIterations (.number (.natural cap.toNat)) = .ok cap := by
  simp [readMaxIterations, readNatural, cap.toNat_lt_size, Except.map]

theorem readModeKind_name (kind : ModeKind) :
    readModeKind (.string kind.name) = .ok kind := by
  cases kind <;> rfl

/-- A list of names is read back, and so is its absence. -/
theorem readPasses_passesValue (passes : Option (List String)) {room : Nat} (hasRoom : 0 < room) :
    ∃ tree, (passesValue passes).tree? room = some tree ∧ readPasses tree = .ok passes := by
  cases passes with
  | none => exact ⟨.null, rfl, rfl⟩
  | some names =>
      have trees : ∀ room, itemsTrees? room (names.map .string) = some (names.map .string) := by
        intro room
        induction names with
        | nil => rfl
        | cons name more inductionHypothesis =>
            simp [itemsTrees?, Value.tree?, inductionHypothesis]
      have read : readNames (names.map .string) = .ok names := by
        clear trees
        induction names with
        | nil => rfl
        | cons name more inductionHypothesis =>
            rw [List.map_cons, readNames, inductionHypothesis]
            rfl
      refine ⟨.array (names.map .string) .closed, ?_, ?_⟩
      · rw [passesValue, Value.tree?, if_pos hasRoom, trees]
        rfl
      · rw [readPasses, read]
        rfl

/-- The kind is found among the fields in either order, and the cap is left over. -/
theorem splitKind_pair (kind : ModeKind) (cap : Number) :
    splitKind none [("kind", .string kind.name), ("max_iterations", .number cap)] =
        .ok (some kind, [("max_iterations", .number cap)]) ∧
      splitKind none [("max_iterations", .number cap), ("kind", .string kind.name)] =
        .ok (some kind, [("max_iterations", .number cap)]) := by
  simp only [splitKind, readModeKind_name]
  exact ⟨rfl, rfl⟩

theorem modeOfFields_cap (kind : ModeKind) (cap : UInt64) :
    modeOfFields kind [("max_iterations", .number (.natural cap.toNat))] =
      .ok (ModeOutline.mode ⟨kind, some cap⟩) := by
  cases kind with
  | once => rfl
  | fixedPoint =>
      simp only [modeOfFields, capAmong, readMaxIterations_natural]
      rfl

/-- A mode is read back from its fields in either order. -/
theorem readMode_fields (mode : ModeOutline) {modeFields : List (String × Value)}
    (perm : modeFields.Perm mode.fields) {room : Nat} (hasRoom : 0 < room) :
    ∃ tree, (Value.object modeFields).tree? room = some tree ∧
      readMode tree = .ok mode.mode := by
  obtain ⟨kind, cap⟩ := mode
  rw [tree?_object hasRoom]
  cases cap with
  | none =>
      obtain rfl := List.perm_singleton.1 perm
      refine ⟨.object [("kind", .string kind.name)] .closed, rfl, ?_⟩
      simp only [readMode, splitKind, readModeKind_name]
      cases kind <;> rfl
  | some cap =>
      have isCap := tree?_natural cap.toNat_lt_size (room - 1)
      obtain ⟨kindFirst, capFirst⟩ := splitKind_pair kind (.natural cap.toNat)
      rcases List.perm_pair.1 perm with rfl | rfl
      · refine ⟨.object [("kind", .string kind.name),
          ("max_iterations", .number (.natural cap.toNat))] .closed, ?_, ?_⟩
        · simp only [fieldsTrees?, isCap]
          rfl
        · rw [readMode, kindFirst]
          exact modeOfFields_cap kind cap
      · refine ⟨.object [("max_iterations", .number (.natural cap.toNat)),
          ("kind", .string kind.name)] .closed, ?_, ?_⟩
        · simp only [fieldsTrees?, isCap]
          rfl
        · rw [readMode, capFirst]
          exact modeOfFields_cap kind cap

/-- The usual order gives what the outline says. -/
theorem Outline.gives (outline : Outline) {modeFields : List (String × Value)}
    (given : ∀ mode ∈ outline.mode, modeFields.Perm mode.fields) {room : Nat}
    (hasRoom : 0 < room) :
    Gives room (outline.fields modeFields) {}
      ⟨outline.level, outline.passes, outline.mode.map ModeOutline.mode⟩ := by
  obtain ⟨level, passes, mode⟩ := outline
  have givesLevel : Gives room
      (level.toList.map fun level => ("opt_level", .number { whole := level.toNat }))
      {} ⟨level, none, none⟩ := by
    cases level with
    | none => exact .nil
    | some level =>
        have fits : level.toNat < UInt64.size := Nat.lt_trans level.toNat_lt_size (by decide)
        exact .single (tree?_natural fits _) (.level rfl (readLevel_natural level))
  have givesPasses : Gives room
      (passes.toList.map fun passes => ("passes", passesValue passes))
      ⟨level, none, none⟩ ⟨level, passes, none⟩ := by
    cases passes with
    | none => exact .nil
    | some passes =>
        obtain ⟨tree, isTree, reads⟩ := readPasses_passesValue passes hasRoom
        exact .single isTree (.passes rfl reads)
  have givesMode : Gives room (mode.toList.map fun _ => ("mode", .object modeFields))
      ⟨level, passes, none⟩ ⟨level, passes, mode.map ModeOutline.mode⟩ := by
    cases mode with
    | none => exact .nil
    | some mode =>
        obtain ⟨tree, isTree, reads⟩ := readMode_fields mode (given mode rfl) hasRoom
        exact .single isTree (.mode rfl reads)
  exact (givesLevel.append givesPasses).append givesMode

theorem Outline.GivenBy.ofJson {outline : Outline} {fields : List (String × Value)}
    (given : outline.GivenBy fields) {text : String}
    (lays : Lays (Value.object fields).lexemes text.toList) :
    PipelineConfig.ofJson text = .ok outline.config := by
  obtain ⟨modeFields, givenMode, perm⟩ := given
  exact ((outline.gives givenMode (by decide)).perm perm).ofJson lays

end ConfigText

namespace PipelineConfig

open Json ConfigText

/-- The outline that gives every field of a mode. -/
def modeOutline : RunMode → ModeOutline
  | .once => { kind := .once }
  | .fixedPoint cap => { kind := .fixedPoint, cap := some cap }

/-- The outline that gives every field of a configuration. -/
def outline (config : PipelineConfig) : Outline where
  level := some config.level
  passes := some config.passes
  mode := some (modeOutline config.mode)

theorem config_outline (config : PipelineConfig) : config.outline.config = config := by
  obtain ⟨level, passes, mode⟩ := config
  cases mode <;> rfl

theorem itemValues_strings (names : List String) :
    itemValues (names.map .string) = names.map .string := by
  induction names with
  | nil => rfl
  | cons name more inductionHypothesis =>
      rw [List.map_cons, itemValues, inductionHypothesis]
      rfl

/-- What is written for a configuration gives every field of it, in the usual order. -/
theorem document_value (config : PipelineConfig) :
    config.document.value =
      .object (config.outline.fields (modeOutline config.mode).fields) := by
  obtain ⟨level, passes, mode⟩ := config
  cases passes with
  | none => cases mode <;> rfl
  | some names =>
      have isList := itemValues_strings names
      cases mode <;>
        simp [document, RunMode.document, Document.value, fieldValues, isList, outline, modeOutline,
          Outline.fields, ModeOutline.fields, passesValue, ModeKind.name]

theorem ofJson_of_lays_document {config : PipelineConfig} {text : String}
    (lays : Lays config.document.value.lexemes text.toList) :
    ofJson text = .ok config := by
  have given : config.outline.GivenBy
      (config.outline.fields (modeOutline config.mode).fields) := by
    refine ⟨_, ?_, .refl _⟩
    rintro mode ⟨⟩
    exact .refl _
  rw [document_value] at lays
  rw [given.ofJson lays, config_outline]

/-- Every configuration is read back from either form in which it is written. An object that gives
some of the fields, each once, in some order and in any layout, is read as the given values with
the defaults for the rest. An object with a field of another name is refused. -/
theorem ofJson_given :
    (∀ config : PipelineConfig,
      ofJson config.json = .ok config ∧ ofJson (Json.pretty config.document) = .ok config) ∧
    (∀ (outline : Outline) (fields : List (String × Value)) (text : String),
      outline.GivenBy fields → Lays (Value.object fields).lexemes text.toList →
      ofJson text = .ok outline.config) ∧
    ∀ (fields : List (String × Value)) (text : String),
      (∃ field ∈ fields, field.1 ∉ ["opt_level", "passes", "mode"]) →
      Lays (Value.object fields).lexemes text.toList →
      ∃ error, ofJson text = .error error := by
  refine ⟨fun config => ⟨?_, ?_⟩, fun outline fields text given lays => given.ofJson lays, ?_⟩
  · exact ofJson_of_lays_document (lays_compact config.document)
  · exact ofJson_of_lays_document (lays_pretty config.document)
  · rintro fields text ⟨field, member, unknown⟩ lays
    cases read : ofJson text with
    | error error => exact ⟨error, rfl⟩
    | ok config => exact absurd (known_of_ofJson lays read field member) unknown

/-- In another order than the usual one, on several lines and without a list of names the level and
the mode are read; under another name the level is not. -/
theorem ofJson_given_reordered :
    ofJson (Json.pretty (.object
      [("mode", .object [("max_iterations", .number 3), ("kind", .string "fixed_point")]),
        ("opt_level", .number 2)])) = .ok { level := 2, mode := .fixedPoint 3 } ∧
    ∃ error, ofJson (Json.pretty (.object [("level", .number 2)])) = .error error := by
  have given : Outline.GivenBy { level := some 2, mode := some ⟨.fixedPoint, some 3⟩ }
      [("mode", .object
        [("max_iterations", .number { whole := 3 }), ("kind", .string "fixed_point")]),
        ("opt_level", .number { whole := 2 })] := by
    refine ⟨_, ?_, .swap _ _ _⟩
    rintro mode ⟨⟩
    exact .swap _ _ _
  have lays := lays_pretty (.object
    [("mode", .object [("max_iterations", .number 3), ("kind", .string "fixed_point")]),
      ("opt_level", .number 2)])
  have laysRenamed := lays_pretty (.object [("level", .number 2)])
  refine ⟨ofJson_given.2.1 _ _ _ given lays, ofJson_given.2.2 _ _ ?_ laysRenamed⟩
  exact ⟨_, List.mem_singleton_self _, by decide⟩

end PipelineConfig

end PassScheduler
