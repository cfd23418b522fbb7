import PassScheduler.Pipeline.Config

/-!
Contract: what is read off the tree of a text, whatever stands in it.

A reader that succeeds has met no flaw. Each field that is accepted has one of three names and has
not been read before; it adds its value to what has been read, and in any other order the same
fields add the same.

Owns:
- that only trees without a flaw are read;
- what a field that is accepted adds;
- that the order of the fields makes no difference to what is read.

Does not own: which texts have which trees.
-/

namespace PassScheduler

namespace ConfigText

open Json

theorem bind_eq_ok {α β : Type} {first : Reading α} {next : α → Reading β} {b : β}
    (bound : (first >>= next) = .ok b) :
    ∃ a, first = .ok a ∧ next a = .ok b := by
  cases first with
  | error error => cases bound
  | ok a => exact ⟨a, rfl, bound⟩

theorem map_eq_ok {α β : Type} {read : Reading α} {change : α → β} {b : β}
    (mapped : read.map change = .ok b) :
    ∃ a, read = .ok a ∧ change a = b := by
  cases read with
  | error error => cases mapped
  | ok a => exact ⟨a, rfl, Except.ok.inj mapped⟩

/-! ## Only trees without a flaw are read -/

theorem mismatch_ne_ok {α : Type} (expected : String) (tree : Tree) (a : α) :
    mismatch expected tree ≠ .ok a := by
  cases tree <;> simp [mismatch]

theorem flaw?_of_checkEnding {ending : Ending} (checked : checkEnding ending = .ok ()) :
    ending.flaw? = none := by
  cases ending with
  | closed => rfl
  | broken flaw => cases checked

theorem eq_none_of_checkFlaw {flaw : Option Flaw} (checked : checkFlaw flaw = .ok ()) :
    flaw = none := by
  cases flaw with
  | none => rfl
  | some flaw => cases checked

theorem readNatural_eq_ok {bound n : Nat} {expected : String} {tree : Tree}
    (read : readNatural bound expected tree = .ok n) : tree = .number (.natural n) := by
  unfold readNatural at read
  split at read
  case h_1 m =>
      split at read
      · rw [Except.ok.inj read]
      · cases read
  case h_2 => cases read
  case h_3 => exact absurd read (mismatch_ne_ok _ _ _)

theorem flaw?_of_readLevel {tree : Tree} {level : Level} (read : readLevel tree = .ok level) :
    tree.flaw? = none := by
  obtain ⟨n, isNatural, -⟩ := map_eq_ok read
  rw [readNatural_eq_ok isNatural]
  rfl

theorem readName_eq_ok {tree : Tree} {name : String} (read : readName tree = .ok name) :
    tree = .string name := by
  unfold readName at read
  split at read
  · rw [Except.ok.inj read]
  · exact absurd read (mismatch_ne_ok _ _ _)

theorem flaw?_of_readNames {items : List Tree} {names : List String}
    (read : readNames items = .ok names) : itemsFlaw? items = none := by
  induction items generalizing names with
  | nil => rfl
  | cons item rest inductionHypothesis =>
      obtain ⟨name, isName, readRest⟩ := bind_eq_ok read
      obtain ⟨more, areNames, -⟩ := bind_eq_ok readRest
      rw [itemsFlaw?, readName_eq_ok isName, inductionHypothesis areNames]
      rfl

theorem flaw?_of_readPasses {tree : Tree} {passes : Option (List String)}
    (read : readPasses tree = .ok passes) : tree.flaw? = none := by
  unfold readPasses at read
  split at read
  case h_1 => rfl
  case h_2 items ending =>
      obtain ⟨names, areNames, checked⟩ := bind_eq_ok read
      obtain ⟨⟨⟩, isClosed, -⟩ := bind_eq_ok checked
      rw [Tree.flaw?, flaw?_of_readNames areNames, flaw?_of_checkEnding isClosed]
      rfl
  case h_3 => exact absurd read (mismatch_ne_ok _ _ _)

theorem flaw?_of_readModeKind {tree : Tree} {kind : ModeKind}
    (read : readModeKind tree = .ok kind) : tree.flaw? = none := by
  unfold readModeKind at read
  split at read
  case h_1 => rfl
  case h_2 => rfl
  case h_3 => rfl
  case h_4 => exact absurd read (mismatch_ne_ok _ _ _)

theorem flaw?_of_splitKind {fields : List (String × Tree)} {kind : Option ModeKind}
    {answer : Option ModeKind × List (String × Tree)} (read : splitKind kind fields = .ok answer) :
    fieldsFlaw? fields = none := by
  induction fields generalizing kind answer with
  | nil => rfl
  | cons field rest inductionHypothesis =>
      obtain ⟨key, value⟩ := field
      unfold splitKind at read
      split at read
      · cases kind with
        | some kind => cases read
        | none =>
            obtain ⟨kind, isKind, readRest⟩ := bind_eq_ok read
            rw [fieldsFlaw?, flaw?_of_readModeKind isKind, inductionHypothesis readRest]
            rfl
      · obtain ⟨⟨⟩, checked, readRest⟩ := bind_eq_ok read
        obtain ⟨others, isSplit, -⟩ := bind_eq_ok readRest
        rw [fieldsFlaw?, eq_none_of_checkFlaw checked, inductionHypothesis isSplit]
        rfl

theorem flaw?_of_readMode {tree : Tree} {mode : RunMode} (read : readMode tree = .ok mode) :
    tree.flaw? = none := by
  unfold readMode at read
  split at read
  case h_1 fields ending =>
      obtain ⟨split, isSplit, checked⟩ := bind_eq_ok read
      obtain ⟨⟨⟩, isClosed, -⟩ := bind_eq_ok checked
      rw [Tree.flaw?, flaw?_of_splitKind isSplit, flaw?_of_checkEnding isClosed]
      rfl
  case h_2 ending =>
      obtain ⟨⟨⟩, isClosed, refused⟩ := bind_eq_ok read
      cases refused
  case h_3 first rest ending =>
      obtain ⟨kind, isKind, checked⟩ := bind_eq_ok read
      obtain ⟨⟨⟩, noFlaw, checked⟩ := bind_eq_ok checked
      obtain ⟨⟨⟩, isClosed, -⟩ := bind_eq_ok checked
      rw [Tree.flaw?, itemsFlaw?, flaw?_of_readModeKind isKind, eq_none_of_checkFlaw noFlaw,
        flaw?_of_checkEnding isClosed]
      rfl
  case h_4 => exact absurd read (mismatch_ne_ok _ _ _)

/-! ## Fields -/

/-- What a field that is accepted adds to those that have been read. -/
inductive ReadsField (read : Partial) : String → Tree → Partial → Prop where
  | level {value : Tree} {level : Level} (fresh : read.level = none)
      (isLevel : readLevel value = .ok level) :
      ReadsField read "opt_level" value { read with level := some level }
  | passes {value : Tree} {passes : Option (List String)} (fresh : read.passes = none)
      (arePasses : readPasses value = .ok passes) :
      ReadsField read "passes" value { read with passes := some passes }
  | mode {value : Tree} {mode : RunMode} (fresh : read.mode = none)
      (isMode : readMode value = .ok mode) :
      ReadsField read "mode" value { read with mode := some mode }

theorem readField_eq_ok_iff {read next : Partial} {key : String} {value : Tree} :
    readField read key value = .ok next ↔ ReadsField read key value next := by
  constructor
  · intro reads
    unfold readField at reads
    split at reads
    case isTrue isKey =>
        subst isKey
        split at reads
        case isTrue => cases reads
        case isFalse fresh =>
            obtain ⟨level, isLevel, rfl⟩ := map_eq_ok reads
            exact .level (by simpa using fresh) isLevel
    case isFalse =>
        split at reads
        case isTrue isKey =>
            subst isKey
            split at reads
            case isTrue => cases reads
            case isFalse fresh =>
                obtain ⟨passes, arePasses, rfl⟩ := map_eq_ok reads
                exact .passes (by simpa using fresh) arePasses
        case isFalse =>
            split at reads
            case isTrue isKey =>
                subst isKey
                split at reads
                case isTrue => cases reads
                case isFalse fresh =>
                    obtain ⟨mode, isMode, rfl⟩ := map_eq_ok reads
                    exact .mode (by simpa using fresh) isMode
            case isFalse => cases reads
  · rintro (⟨fresh, isValue⟩ | ⟨fresh, isValue⟩ | ⟨fresh, isValue⟩) <;>
      simp [readField, fresh, isValue, Except.map]

namespace ReadsField

variable {read next last : Partial} {key otherKey : String} {value otherValue : Tree}

theorem flaw? (reads : ReadsField read key value next) : value.flaw? = none := by
  cases reads with
  | level _ isLevel => exact flaw?_of_readLevel isLevel
  | passes _ arePasses => exact flaw?_of_readPasses arePasses
  | mode _ isMode => exact flaw?_of_readMode isMode

theorem known (reads : ReadsField read key value next) :
    key ∈ ["opt_level", "passes", "mode"] := by
  cases reads <;> simp

/-- Two fields that are accepted may change places. -/
theorem swap (reads : ReadsField read key value next)
    (readsOther : ReadsField next otherKey otherValue last) :
    ∃ other, ReadsField read otherKey otherValue other ∧ ReadsField other key value last := by
  cases reads with
  | level fresh isLevel =>
      cases readsOther with
      | level otherFresh => cases otherFresh
      | passes otherFresh arePasses => exact ⟨_, .passes otherFresh arePasses, .level fresh isLevel⟩
      | mode otherFresh isMode => exact ⟨_, .mode otherFresh isMode, .level fresh isLevel⟩
  | passes fresh arePasses =>
      cases readsOther with
      | level otherFresh isLevel => exact ⟨_, .level otherFresh isLevel, .passes fresh arePasses⟩
      | passes otherFresh => cases otherFresh
      | mode otherFresh isMode => exact ⟨_, .mode otherFresh isMode, .passes fresh arePasses⟩
  | mode fresh isMode =>
      cases readsOther with
      | level otherFresh isLevel => exact ⟨_, .level otherFresh isLevel, .mode fresh isMode⟩
      | passes otherFresh arePasses => exact ⟨_, .passes otherFresh arePasses, .mode fresh isMode⟩
      | mode otherFresh => cases otherFresh

end ReadsField

theorem readFields_cons_eq_ok_iff {read last : Partial} {key : String} {value : Tree}
    {rest : List (String × Tree)} :
    readFields read ((key, value) :: rest) = .ok last ↔
      ∃ next, ReadsField read key value next ∧ readFields next rest = .ok last := by
  constructor
  · intro reads
    obtain ⟨next, first, others⟩ := bind_eq_ok reads
    exact ⟨next, readField_eq_ok_iff.1 first, others⟩
  · rintro ⟨next, first, others⟩
    rw [readFields, readField_eq_ok_iff.2 first]
    exact others

theorem flaw?_of_readFields {read last : Partial} {fields : List (String × Tree)}
    (reads : readFields read fields = .ok last) : fieldsFlaw? fields = none := by
  induction fields generalizing read with
  | nil => rfl
  | cons field rest inductionHypothesis =>
      obtain ⟨next, first, others⟩ := readFields_cons_eq_ok_iff.1 reads
      rw [fieldsFlaw?, first.flaw?, inductionHypothesis others]
      rfl

/-- Only fields of the three known names are accepted. -/
theorem known_of_readFields {read last : Partial} {fields : List (String × Tree)}
    (reads : readFields read fields = .ok last) :
    ∀ field ∈ fields, field.1 ∈ ["opt_level", "passes", "mode"] := by
  induction fields generalizing read with
  | nil => simp
  | cons field rest inductionHypothesis =>
      obtain ⟨next, first, others⟩ := readFields_cons_eq_ok_iff.1 reads
      exact List.forall_mem_cons.2 ⟨first.known, inductionHypothesis others⟩

/-- The order of the fields makes no difference to what is read. -/
theorem readFields_perm {fields others : List (String × Tree)} (perm : fields.Perm others)
    {read last : Partial} (reads : readFields read fields = .ok last) :
    readFields read others = .ok last := by
  induction perm generalizing read last with
  | nil => exact reads
  | cons field _ inductionHypothesis =>
      obtain ⟨next, first, rest⟩ := readFields_cons_eq_ok_iff.1 reads
      exact readFields_cons_eq_ok_iff.2 ⟨next, first, inductionHypothesis rest⟩
  | swap field other rest =>
      -- each is still new after the other, because they add to different places
      obtain ⟨next, first, reads⟩ := readFields_cons_eq_ok_iff.1 reads
      obtain ⟨afterNext, second, reads⟩ := readFields_cons_eq_ok_iff.1 reads
      obtain ⟨next, first, second⟩ := first.swap second
      exact readFields_cons_eq_ok_iff.2 ⟨next, first,
        readFields_cons_eq_ok_iff.2 ⟨afterNext, second, reads⟩⟩
  | trans _ _ firstHypothesis secondHypothesis =>
      exact secondHypothesis (firstHypothesis reads)

theorem readFields_append {fields others : List (String × Tree)} {read next last : Partial}
    (reads : readFields read fields = .ok next) (readsOthers : readFields next others = .ok last) :
    readFields read (fields ++ others) = .ok last := by
  induction fields generalizing read with
  | nil =>
      obtain rfl := Except.ok.inj reads
      exact readsOthers
  | cons field rest inductionHypothesis =>
      obtain ⟨afterFirst, first, more⟩ := readFields_cons_eq_ok_iff.1 reads
      exact readFields_cons_eq_ok_iff.2 ⟨afterFirst, first, inductionHypothesis more⟩

/-! ## Whole trees -/

theorem flaw?_of_configOfItems {items : List Tree} {ending : Ending} {config : PipelineConfig}
    (read : configOfItems items ending = .ok config) :
    (Tree.array items ending).flaw? = none := by
  rw [Tree.flaw?]
  unfold configOfItems at read
  split at read
  case h_1 =>
      obtain ⟨⟨⟩, isClosed, -⟩ := bind_eq_ok read
      rw [flaw?_of_checkEnding isClosed]
      rfl
  case h_2 level =>
      obtain ⟨level, isLevel, read⟩ := bind_eq_ok read
      obtain ⟨⟨⟩, isClosed, -⟩ := bind_eq_ok read
      rw [flaw?_of_checkEnding isClosed, itemsFlaw?, flaw?_of_readLevel isLevel]
      rfl
  case h_3 level passes =>
      obtain ⟨level, isLevel, read⟩ := bind_eq_ok read
      obtain ⟨passes, arePasses, read⟩ := bind_eq_ok read
      obtain ⟨⟨⟩, isClosed, -⟩ := bind_eq_ok read
      rw [flaw?_of_checkEnding isClosed, itemsFlaw?, flaw?_of_readLevel isLevel, itemsFlaw?,
        flaw?_of_readPasses arePasses]
      rfl
  case h_4 level passes mode rest =>
      obtain ⟨level, isLevel, read⟩ := bind_eq_ok read
      obtain ⟨passes, arePasses, read⟩ := bind_eq_ok read
      obtain ⟨mode, isMode, read⟩ := bind_eq_ok read
      cases rest with
      | cons item more => cases read
      | nil =>
          obtain ⟨⟨⟩, isClosed, -⟩ := bind_eq_ok read
          rw [flaw?_of_checkEnding isClosed, itemsFlaw?, flaw?_of_readLevel isLevel, itemsFlaw?,
            flaw?_of_readPasses arePasses, itemsFlaw?, flaw?_of_readMode isMode]
          rfl

theorem flaw?_of_readConfig {tree : Tree} {config : PipelineConfig}
    (read : readConfig tree = .ok config) : tree.flaw? = none := by
  unfold readConfig at read
  split at read
  case h_1 fields ending =>
      obtain ⟨last, reads, checked⟩ := bind_eq_ok read
      obtain ⟨⟨⟩, isClosed, -⟩ := bind_eq_ok checked
      rw [Tree.flaw?, flaw?_of_readFields reads, flaw?_of_checkEnding isClosed]
      rfl
  case h_2 => exact flaw?_of_configOfItems read
  case h_3 => exact absurd read (mismatch_ne_ok _ _ _)

end ConfigText

end PassScheduler
