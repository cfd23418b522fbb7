import PassScheduler.Pass.Listing
import PassScheduler.Proofs.Text.Delimited

/-!
Contract: a drawing shows its registry and nothing else.

A drawing is put together of nodes and arrows, each of which ends where a reader can see it, whatever
stands in the names.

Owns:
- what is shown of a pass, and the nodes and arrows of a drawing;
- that two registries have the same drawing iff the same is shown of their passes;
- that names change nothing outside of the quoted strings of a drawing.

Does not own: how a drawing is laid out.
-/

namespace PassScheduler

open Lexer (Avoids)
open Text (Delimited delimited_digits)

namespace Dot

/-! ## Parts of a drawing -/

/-- What is shown of a pass. -/
structure Shown where
  name : String
  kind : PassKind
  minLevel : Level
  requirements : List PassId
  invalidations : List PassId
deriving DecidableEq, Repr

structure Node where
  id : PassId
  name : String
  kind : PassKind
  minLevel : Level
deriving DecidableEq, Repr

/-- An arrow to a prerequisite, or a dashed one to a pass that goes stale. -/
structure Arrow where
  source : PassId
  target : PassId
  dashed : Bool
deriving DecidableEq, Repr

/-- How a node looks beside its label and its shape. -/
def style (level : Option Level) (minLevel : Level) : String :=
  if level.any fun level => !decide (minLevel ≤ level) then
    ", style=dashed, color=gray60, fontcolor=gray60"
  else ""

def Node.text (level : Option Level) (node : Node) : List Char :=
  "    p".toList ++ (Nat.toDigits 10 node.id ++ (" [label=\"".toList ++ ((escape node.name).toList ++
    ("\\nO".toList ++ (Nat.toDigits 10 node.minLevel.toNat ++ ("\", shape=".toList ++
      ((shape node.kind).toList ++ ((style level node.minLevel).toList ++ "];\n".toList))))))))

/-- How the line of an arrow ends. -/
def ending (dashed : Bool) : String :=
  if dashed then " [style=dashed, color=red, constraint=false];\n" else ";\n"

def Arrow.text (arrow : Arrow) : List Char :=
  "    p".toList ++ (Nat.toDigits 10 arrow.source ++ (" -> p".toList ++
    (Nat.toDigits 10 arrow.target ++ (ending arrow.dashed).toList)))

def nodes (passes : List Shown) : List Node :=
  passes.zipIdx.map fun (pass, id) => ⟨id, pass.name, pass.kind, pass.minLevel⟩

/-- The arrows of some passes, of which the first has the given number. -/
def arrowsFrom (first : Nat) (passes : List Shown) : List Arrow :=
  (passes.zipIdx first).flatMap fun (pass, id) =>
    pass.requirements.map (⟨id, ·, false⟩) ++ pass.invalidations.map (⟨id, ·, true⟩)

/-- The drawing of some passes. -/
def drawn (level : Option Level) (passes : List Shown) : List Char :=
  header.toList ++ '\n' :: ((nodes passes).flatMap (Node.text level) ++
    '\n' :: ((arrowsFrom 0 passes).flatMap Arrow.text ++ "\x7d\n".toList))

theorem toList_node (level : Option Level) (id : PassId) (descriptor : Descriptor) :
    (node level id descriptor).toList =
      Node.text level ⟨id, descriptor.name, descriptor.kind, descriptor.minLevel⟩ := by
  have same : node level id descriptor = "    " ++ nodeName id ++ " [label=\"" ++
      escape descriptor.name ++ "\\nO" ++ descriptor.minLevel.toNat.repr ++ "\", shape=" ++
        shape descriptor.kind ++ style level descriptor.minLevel ++ "];\n" := by
    cases level <;> rfl
  rw [same]
  simp [Node.text, nodeName]

theorem toList_edges {Instance : Type} (id : PassId) (pass : ResolvedPass Instance) :
    (edges id pass).toList =
      (pass.requirements.map (Arrow.mk id · false) ++
        pass.invalidations.map (Arrow.mk id · true)).flatMap Arrow.text := by
  simp [edges, String.toList_join, List.flatMap_map, Arrow.text, ending, requirementEdge,
    invalidationEdge, nodeName]

end Dot

variable {Instance : Type}

def ResolvedPass.shown (pass : ResolvedPass Instance) : Dot.Shown where
  name := pass.descriptor.name
  kind := pass.descriptor.kind
  minLevel := pass.descriptor.minLevel
  requirements := pass.requirements
  invalidations := pass.invalidations

theorem Registry.toList_dot (registry : Registry Instance) (level : Option Level) :
    (registry.dot level).toList = Dot.drawn level (registry.passes.map ResolvedPass.shown) := by
  simp [dot, Dot.drawn, Dot.nodes, Dot.arrowsFrom, String.toList_join, List.zipIdx_map,
    List.flatMap_map, Dot.toList_node, Dot.toList_edges, ResolvedPass.shown, List.flatMap_assoc]

namespace Dot

/-! ## Where the parts end -/

theorem toList_escape (name : String) :
    (escape name).toList = name.toList.flatMap fun c => (escapedChar c).toList := by
  simp [escape, String.toList_join, List.flatMap_map]

/-- A character in a label begins with a backslash only together with a second one or a quote. -/
theorem escapedChar_cases (c : Char) :
    c = '\\' ∧ (escapedChar c).toList = ['\\', '\\'] ∨
      c = '"' ∧ (escapedChar c).toList = ['\\', '"'] ∨
        c ≠ '\\' ∧ c ≠ '"' ∧ (escapedChar c).toList = [c] := by
  unfold escapedChar
  split
  · exact .inl ⟨rfl, by simp⟩
  · exact .inr (.inl ⟨rfl, by simp⟩)
  · rename_i notBackslash notQuote
    exact .inr (.inr ⟨notBackslash, notQuote, by simp⟩)

theorem delimited_escapedChar (c : Char) :
    Delimited (fun _ => True) (fun c => (escapedChar c).toList) c := by
  intro other rest otherRest _ _ same
  rcases escapedChar_cases c with ⟨rfl, text⟩ | ⟨rfl, text⟩ | ⟨plain, plainToo, text⟩ <;>
    rcases escapedChar_cases other with ⟨rfl, textOther⟩ | ⟨rfl, textOther⟩ |
      ⟨plainOther, plainOtherToo, textOther⟩ <;>
    simp only [text, textOther] at same <;> grind

/-- A label ends its name with a backslash and a letter, which no name does. -/
theorem escape_append_inj {name other : String} {rest otherRest : List Char}
    (same : (escape name).toList ++ ("\\nO".toList ++ rest) =
      (escape other).toList ++ ("\\nO".toList ++ otherRest)) :
    name = other ∧ rest = otherRest := by
  have apart : ∀ rest : List Char, ∀ c more,
      (escapedChar c).toList ++ more ≠ "\\nO".toList ++ rest := by
    intro rest c more
    rcases escapedChar_cases c with ⟨_, text⟩ | ⟨_, text⟩ | ⟨plain, _, text⟩ <;> simp [text]
    exact fun isBackslash => absurd isBackslash plain
  rw [toList_escape, toList_escape] at same
  obtain ⟨sameName, sameRest⟩ := Delimited.flatMap (fun _ _ => trivial) trivial trivial (apart rest)
    (apart otherRest) (fun c _ => delimited_escapedChar c) same
  exact ⟨String.toList_inj.1 sameName, List.append_cancel_left sameRest⟩

theorem shape_append_inj {kind other : PassKind} {rest otherRest : List Char}
    (same : (shape kind).toList ++ rest = (shape other).toList ++ otherRest) :
    kind = other ∧ rest = otherRest := by
  cases kind <;> cases other <;> simp_all [shape]

theorem Node.delimited (level : Option Level) (node : Node) :
    Delimited (fun _ => True) (Node.text level) node := by
  intro other rest otherRest _ _ same
  obtain ⟨id, name, kind, minLevel⟩ := node
  obtain ⟨otherId, otherName, otherKind, otherLevel⟩ := other
  simp only [Node.text, List.append_assoc] at same
  have idEnds : ∀ more, Avoids Char.isDigit (" [label=\"".toList ++ more) := by simp [Avoids]
  have levelEnds : ∀ more, Avoids Char.isDigit ("\", shape=".toList ++ more) := by simp [Avoids]
  have fromId := List.append_cancel_left same
  obtain ⟨sameId, fromLabel⟩ := delimited_digits _ _ _ _ (idEnds _) (idEnds _) fromId
  obtain ⟨sameName, fromLevel⟩ := escape_append_inj (List.append_cancel_left fromLabel)
  obtain ⟨sameLevel, fromShape⟩ :=
    delimited_digits _ _ _ _ (levelEnds _) (levelEnds _) fromLevel
  obtain ⟨sameKind, fromStyle⟩ := shape_append_inj (List.append_cancel_left fromShape)
  rw [UInt32.toNat_inj] at sameLevel
  subst sameId sameName sameLevel sameKind
  exact ⟨rfl, List.append_cancel_left (List.append_cancel_left fromStyle)⟩

theorem ending_append_inj {dashed other : Bool} {rest otherRest : List Char}
    (same : (ending dashed).toList ++ rest = (ending other).toList ++ otherRest) :
    dashed = other ∧ rest = otherRest := by
  cases dashed <;> cases other <;> simp_all [ending]

theorem avoids_ending (dashed : Bool) (more : List Char) :
    Avoids Char.isDigit ((ending dashed).toList ++ more) := by
  cases dashed <;> simp [Avoids, ending]

theorem Arrow.delimited (arrow : Arrow) :
    Delimited (fun _ => True) Arrow.text arrow := by
  intro other rest otherRest _ _ same
  obtain ⟨source, target, dashed⟩ := arrow
  obtain ⟨otherSource, otherTarget, otherDashed⟩ := other
  simp only [Arrow.text, List.append_assoc] at same
  have sourceEnds : ∀ more, Avoids Char.isDigit (" -> p".toList ++ more) := by simp [Avoids]
  have fromSource := List.append_cancel_left same
  obtain ⟨sameSource, fromLine⟩ :=
    delimited_digits _ _ _ _ (sourceEnds _) (sourceEnds _) fromSource
  have fromTarget := List.append_cancel_left fromLine
  obtain ⟨sameTarget, fromEnd⟩ :=
    delimited_digits _ _ _ _ (avoids_ending _ _) (avoids_ending _ _) fromTarget
  obtain ⟨sameDashed, sameRest⟩ := ending_append_inj fromEnd
  subst sameSource sameTarget sameDashed
  exact ⟨rfl, sameRest⟩

/-! ## What can be read off -/

/-- Where the arrows of one kind from one pass lead to. -/
def targets (source : PassId) (dashed : Bool) (arrows : List Arrow) : List PassId :=
  arrows.filterMap fun arrow =>
    if arrow.source = source ∧ arrow.dashed = dashed then some arrow.target else none

def Shown.list (pass : Shown) (dashed : Bool) : List PassId :=
  if dashed then pass.invalidations else pass.requirements

theorem le_source {first : Nat} {passes : List Shown} {arrow : Arrow}
    (member : arrow ∈ arrowsFrom first passes) :
    first ≤ arrow.source := by
  obtain ⟨⟨pass, id⟩, isPass, isOwn⟩ := List.mem_flatMap.1 member
  have later : first ≤ id := List.le_snd_of_mem_zipIdx isPass
  rcases List.mem_append.1 isOwn with isOwn | isOwn <;>
    obtain ⟨target, _, rfl⟩ := List.mem_map.1 isOwn <;>
    exact later

/-- The arrows of a pass lead where its lists say. -/
theorem targets_arrowsFrom (first : Nat) (passes : List Shown) (place : Nat) (dashed : Bool) :
    targets (first + place) dashed (arrowsFrom first passes) =
      ((passes[place]?).map (Shown.list · dashed)).getD [] := by
  induction passes generalizing first place with
  | nil => rfl
  | cons pass rest inductionHypothesis =>
      have split : arrowsFrom first (pass :: rest) =
          pass.requirements.map (⟨first, ·, false⟩) ++ pass.invalidations.map (⟨first, ·, true⟩) ++
            arrowsFrom (first + 1) rest := rfl
      rw [split]
      unfold targets at inductionHypothesis ⊢
      rw [List.filterMap_append, List.filterMap_append]
      cases place with
      | zero =>
          have others : (arrowsFrom (first + 1) rest).filterMap (fun arrow =>
              if arrow.source = first + 0 ∧ arrow.dashed = dashed then some arrow.target
              else none) = [] := by
            rw [List.filterMap_eq_nil_iff]
            intro arrow member
            have later := le_source member
            refine if_neg fun ⟨own, _⟩ => ?_
            rw [own] at later
            exact Nat.not_succ_le_self first later
          rw [others]
          cases dashed <;> simp [List.filterMap_map, Shown.list]
      | succ place =>
          have next : first + (place + 1) = first + 1 + place := by omega
          rw [next, inductionHypothesis]
          have own : first ≠ first + 1 + place := by omega
          simp [List.filterMap_map, own]

/-- A drawing determines what is shown of the passes. -/
theorem drawn_injective (level : Option Level) : Function.Injective (drawn level) := by
  intro passes others same
  have fromNodes := (List.cons.inj (List.append_cancel_left same)).2
  obtain ⟨sameNodes, fromGap⟩ := Delimited.flatMap (fun _ _ => trivial) trivial trivial
    (by simp [Node.text]) (by simp [Node.text]) (fun node _ => Node.delimited level node) fromNodes
  obtain ⟨sameArrows, _⟩ := Delimited.flatMap (fun _ _ => trivial) trivial trivial
    (by simp [Arrow.text]) (by simp [Arrow.text]) (fun arrow _ => Arrow.delimited arrow)
    (List.cons.inj fromGap).2
  apply List.ext_getElem?
  intro place
  have sameNode := congrArg (·[place]?) sameNodes
  have sameList : ∀ dashed, ((passes[place]?).map (Shown.list · dashed)).getD [] =
      ((others[place]?).map (Shown.list · dashed)).getD [] := by
    intro dashed
    rw [← targets_arrowsFrom 0, sameArrows, targets_arrowsFrom]
  simp only [nodes, List.getElem?_map, List.getElem?_zipIdx] at sameNode
  cases isPass : passes[place]? with
  | none =>
      cases isOther : others[place]? with
      | none => rfl
      | some other => simp [isPass, isOther] at sameNode
  | some pass =>
      cases isOther : others[place]? with
      | none => simp [isPass, isOther] at sameNode
      | some other =>
          obtain ⟨name, kind, minLevel, requirements, invalidations⟩ := pass
          obtain ⟨otherName, otherKind, otherLevel, otherRequirements, otherInvalidations⟩ := other
          simp [isPass, isOther, Shown.list] at sameNode sameList
          simp [sameNode, sameList]

/-! ## Outside of quoted strings -/

/-- What of a text stands outside of quoted strings, with their quotes, if it begins outside of them
or inside. Inside, a backslash takes the next character with it. -/
def unquoted : (inside : Bool) → List Char → List Char
  | _, [] => []
  | false, c :: rest => c :: unquoted (c = '"') rest
  | true, '"' :: rest => '"' :: unquoted false rest
  | true, '\\' :: _ :: rest => unquoted true rest
  | true, _ :: rest => unquoted true rest

theorem unquoted_outside {plain : List Char} (noQuote : '"' ∉ plain) (rest : List Char) :
    unquoted false (plain ++ rest) = plain ++ unquoted false rest := by
  induction plain with
  | nil => rfl
  | cons c more inductionHypothesis =>
      have other : c ≠ '"' := fun isQuote => noQuote (by simp [isQuote])
      have others : '"' ∉ more := fun member => noQuote (by simp [member])
      simp [unquoted, other, inductionHypothesis others]

theorem unquoted_inside {plain : List Char}
    (isPlain : ∀ c ∈ plain, c ≠ '"' ∧ c ≠ '\\') (rest : List Char) :
    unquoted true (plain ++ rest) = unquoted true rest := by
  induction plain with
  | nil => rfl
  | cons c more inductionHypothesis =>
      obtain ⟨notQuote, notBackslash⟩ := isPlain c (by simp)
      have others := inductionHypothesis fun c member => isPlain c (by simp [member])
      rw [List.cons_append, unquoted.eq_def]
      simp [notBackslash, others]

theorem unquoted_escape (name : String) (rest : List Char) :
    unquoted true ((escape name).toList ++ rest) = unquoted true rest := by
  rw [toList_escape]
  induction name.toList with
  | nil => rfl
  | cons c more inductionHypothesis =>
      rw [List.flatMap_cons, List.append_assoc]
      rcases escapedChar_cases c with ⟨_, text⟩ | ⟨_, text⟩ | ⟨notBackslash, notQuote, text⟩
      · rw [text]
        exact inductionHypothesis
      · rw [text]
        exact inductionHypothesis
      · rw [text, unquoted_inside (by simp [notBackslash, notQuote]), inductionHypothesis]

/-- A node with its label taken out. -/
def bareNode (level : Option Level) (node : Node) : List Char :=
  "    p".toList ++ (Nat.toDigits 10 node.id ++ (" [label=\"\"".toList ++ (", shape=".toList ++
    ((shape node.kind).toList ++ ((style level node.minLevel).toList ++ "];\n".toList)))))

theorem not_mem_digits {c : Char} (other : c.isDigit = false) (n : Nat) :
    c ∉ Nat.toDigits 10 n := by
  intro member
  rw [Nat.isDigit_of_mem_toDigits (by decide) (by decide) member] at other
  cases other

theorem unquoted_label (name : String) (minLevel : Nat) (rest : List Char) :
    unquoted false (" [label=\"".toList ++ ((escape name).toList ++ ("\\nO".toList ++
        (Nat.toDigits 10 minLevel ++ ("\", shape=".toList ++ rest))))) =
      " [label=\"\"".toList ++ (", shape=".toList ++ unquoted false rest) := by
  have digits : ∀ c ∈ Nat.toDigits 10 minLevel, c ≠ '"' ∧ c ≠ '\\' := by
    intro c member
    constructor <;> rintro rfl <;> exact not_mem_digits (by decide) _ member
  have opened : ∀ more, unquoted false (" [label=\"".toList ++ more) =
      " [label=\"".toList ++ unquoted true more := by
    simp [unquoted]
  have separated : ∀ more, unquoted true ("\\nO".toList ++ more) = unquoted true more := by
    simp [unquoted]
  have closed : unquoted true ("\", shape=".toList ++ rest) =
      "\", shape=".toList ++ unquoted false rest := by
    simp [unquoted]
  rw [opened, unquoted_escape, separated, unquoted_inside digits, closed]
  simp

theorem unquoted_node (level : Option Level) (node : Node) (rest : List Char) :
    unquoted false (Node.text level node ++ rest) = bareNode level node ++ unquoted false rest := by
  have shaped : '"' ∉ (shape node.kind).toList := by cases node.kind <;> simp [shape]
  have styled : '"' ∉ (style level node.minLevel).toList := by
    unfold style
    split <;> simp
  simp only [Node.text, bareNode, List.append_assoc]
  rw [unquoted_outside (by simp), unquoted_outside (not_mem_digits (by decide) _), unquoted_label,
    unquoted_outside shaped, unquoted_outside styled, unquoted_outside (by simp)]

/-- What stands outside of quoted strings goes through a row of parts one by one. -/
theorem unquoted_flatMap {α : Type} {text bare : α → List Char}
    (each : ∀ value rest, unquoted false (text value ++ rest) = bare value ++ unquoted false rest)
    (values : List α) (rest : List Char) :
    unquoted false (values.flatMap text ++ rest) = values.flatMap bare ++ unquoted false rest := by
  induction values with
  | nil => rfl
  | cons value more inductionHypothesis =>
      simp only [List.flatMap_cons, List.append_assoc, each, inductionHypothesis]

/-- A pass without its name. -/
def Shown.unnamed (pass : Shown) : Shown :=
  { pass with name := "" }

/-- A plain text and a plain quoted string after it. -/
theorem unquoted_quoted {before between : List Char} (noQuote : '"' ∉ before)
    (isPlain : ∀ c ∈ between, c ≠ '"' ∧ c ≠ '\\') (rest : List Char) :
    unquoted false (before ++ '"' :: (between ++ '"' :: rest)) =
      before ++ '"' :: '"' :: unquoted false rest := by
  have opened : ∀ more, unquoted false ('"' :: more) = '"' :: unquoted true more := by
    simp [unquoted]
  have closed : ∀ more, unquoted true ('"' :: more) = '"' :: unquoted false more := by
    simp [unquoted]
  rw [unquoted_outside noQuote, opened, unquoted_inside isPlain, closed]

theorem header_eq :
    header = "digraph passes \x7b\n    rankdir=BT;\n    node [fontname=" ++ ("\"" ++ ("Helvetica" ++
      ("\"" ++ (", fontsize=10];\n    edge [fontname=" ++ ("\"" ++ ("Helvetica" ++
        ("\"" ++ ", fontsize=9];\n"))))))) := by
  decide +kernel

/-- The quoted strings of the head are closed in it. -/
theorem unquoted_header (rest : List Char) :
    unquoted false (header.toList ++ rest) =
      "digraph passes \x7b\n    rankdir=BT;\n    node [fontname=".toList ++ '"' :: '"' ::
        (", fontsize=10];\n    edge [fontname=".toList ++ '"' :: '"' ::
          (", fontsize=9];\n".toList ++ unquoted false rest)) := by
  have quote : "\"".toList = ['"'] := by simp
  have plain : ∀ c ∈ "Helvetica".toList, c ≠ '"' ∧ c ≠ '\\' := by simp
  rw [header_eq]
  simp only [String.toList_append, quote, List.append_assoc, List.cons_append,
    List.nil_append]
  rw [unquoted_quoted (by simp) plain, unquoted_quoted (by simp) plain, unquoted_outside (by simp)]

/-- Outside of its quoted strings a drawing is that of the passes without their names. -/
theorem unquoted_drawn (level : Option Level) (passes : List Shown) :
    unquoted false (drawn level passes) =
      unquoted false (drawn level (passes.map Shown.unnamed)) := by
  have gap : ∀ rest, unquoted false ('\n' :: rest) = '\n' :: unquoted false rest := by
    simp [unquoted]
  have sameNodes : (nodes (passes.map Shown.unnamed)).flatMap (bareNode level) =
      (nodes passes).flatMap (bareNode level) := by
    simp [nodes, List.zipIdx_map, List.flatMap_map, bareNode, Shown.unnamed]
  have sameArrows : arrowsFrom 0 (passes.map Shown.unnamed) = arrowsFrom 0 passes := by
    simp [arrowsFrom, List.zipIdx_map, List.flatMap_map, Shown.unnamed]
  simp only [drawn, unquoted_header, gap, unquoted_flatMap (unquoted_node level), sameNodes,
    sameArrows]

end Dot

namespace Registry

variable {Other : Type}

/-- Two registries have the same drawing iff their passes agree, in order, in name, kind, level and
both lists. Whatever stands in the names, it is inside quoted strings: registries that differ in
names only have drawings that differ inside of them only. -/
theorem dot_eq_iff (registry : Registry Instance) (other : Registry Other)
    (level : Option Level) :
    (registry.dot level = other.dot level ↔
        registry.passes.map ResolvedPass.shown = other.passes.map ResolvedPass.shown) ∧
      (registry.passes.map (fun pass => pass.shown.unnamed) =
          other.passes.map (fun pass => pass.shown.unnamed) →
        Dot.unquoted false (registry.dot level).toList =
          Dot.unquoted false (other.dot level).toList) := by
  constructor
  · rw [← String.toList_inj, toList_dot, toList_dot]
    exact (Dot.drawn_injective level).eq_iff
  · intro sameButNames
    rw [toList_dot, toList_dot, Dot.unquoted_drawn, Dot.unquoted_drawn level (other.passes.map _),
      List.map_map, List.map_map]
    exact congrArg (fun passes => Dot.unquoted false (Dot.drawn level passes)) sameButNames

/-- A pass that stands alone. -/
def lone (name : String) : Registry Unit :=
  .ofPasses [⟨⟨.analysis name, fun _ => ()⟩, [], []⟩]

/-- A name that spells the end of its node and an arrow has a drawing of its own, in which these are
part of a label. -/
theorem dot_eq_iff_forged :
    let forged := lone "a\\nO0\", shape=box];\n    p0 -> p0;\n    p1 [label=\"b"
    forged.dot none ≠ (lone "a").dot none ∧
      Dot.unquoted false (forged.dot none).toList =
        Dot.unquoted false ((lone "a").dot none).toList := by
  intro forged
  obtain ⟨same, outside⟩ := dot_eq_iff forged (lone "a") none
  refine ⟨fun isSame => ?_, outside rfl⟩
  have shown := same.1 isSame
  revert shown
  decide

end Registry

end PassScheduler
