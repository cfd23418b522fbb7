import PassScheduler.Json.Writer
import PassScheduler.Pass.Registry

/-!
Contract: texts that describe a registry.

Owns:
- the canonical text, from which equal configurations and no others come out equal;
- the table of passes;
- the drawing in the DOT language, one node for each pass, a solid edge to every pass that it
  requires and a dashed one to every pass that it makes stale.

Does not own: the layout of documents, or the drawing itself.
-/

namespace PassScheduler

def Descriptor.document (descriptor : Descriptor) : Json.Document :=
  .object
    [("name", .string descriptor.name),
      ("kind", .string descriptor.kind.text),
      ("min_opt_level", .number descriptor.minLevel.toNat),
      ("requires", .array (descriptor.requires.map .string)),
      ("invalidates", .array (descriptor.invalidates.map .string))]

/-- A text with blanks after it, up to a width. -/
def padRight (width : Nat) (text : String) : String :=
  text ++ String.ofList (List.replicate (width - text.length) ' ')

/-- Names with commas between them; no names are shown by a dash. -/
def nameList : List String → String
  | [] => "-"
  | names => String.intercalate "," names

/-- A pass as a row of the table of passes. -/
def Descriptor.row (descriptor : Descriptor) : String :=
  padRight 20 descriptor.name ++ " " ++ padRight 15 descriptor.kind.text ++ " O" ++
    descriptor.minLevel.toNat.repr ++ "  requires=" ++ nameList descriptor.requires ++
    "  invalidates=" ++ nameList descriptor.invalidates ++ "\n"

namespace Dot

/-- A character inside a quoted label: quotes and backslashes take a backslash. -/
def escapedChar : Char → String
  | '\\' => "\\\\"
  | '"' => "\\\""
  | c => String.singleton c

def escape (name : String) : String :=
  String.join (name.toList.map escapedChar)

def nodeName (id : PassId) : String :=
  "p" ++ id.repr

def shape : PassKind → String
  | .analysis => "ellipse"
  | .transformation => "box"

/-- The node of a pass. With a level, passes that take no part at it are drawn in grey. -/
def node (level : Option Level) (id : PassId) (descriptor : Descriptor) : String :=
  let gated := match level with
    | none => false
    | some level => !descriptor.isEnabledAt level
  let style := if gated then ", style=dashed, color=gray60, fontcolor=gray60" else ""
  "    " ++ nodeName id ++ " [label=\"" ++ escape descriptor.name ++ "\\nO" ++
    descriptor.minLevel.toNat.repr ++ "\", shape=" ++ shape descriptor.kind ++ style ++ "];\n"

def requirementEdge (id requirement : PassId) : String :=
  "    " ++ nodeName id ++ " -> " ++ nodeName requirement ++ ";\n"

def invalidationEdge (id target : PassId) : String :=
  "    " ++ nodeName id ++ " -> " ++ nodeName target ++
    " [style=dashed, color=red, constraint=false];\n"

def edges {Instance : Type} (id : PassId) (pass : ResolvedPass Instance) : String :=
  String.join (pass.requirements.map (requirementEdge id)) ++
    String.join (pass.invalidations.map (invalidationEdge id))

def header : String :=
  "digraph passes \x7b\n    rankdir=BT;\n" ++
    "    node [fontname=\"Helvetica\", fontsize=10];\n" ++
    "    edge [fontname=\"Helvetica\", fontsize=9];\n"

end Dot

namespace Registry

variable {Instance : Type}

/-- All descriptors in the order of registration, in compact form. -/
def canonicalJson (registry : Registry Instance) : String :=
  Json.compact (.array (registry.descriptors.map Descriptor.document))

/-- The table of passes, one row each. -/
def table (registry : Registry Instance) : String :=
  String.join (registry.descriptors.map Descriptor.row)

/-- The drawing of a registry, seen from a level if one is given. -/
def dot (registry : Registry Instance) (level : Option Level) : String :=
  let nodes := registry.passes.zipIdx.map fun (pass, id) => Dot.node level id pass.descriptor
  let edges := registry.passes.zipIdx.map fun (pass, id) => Dot.edges id pass
  Dot.header ++ "\n" ++ String.join nodes ++ "\n" ++ String.join edges ++ "\x7d\n"

end Registry

end PassScheduler
