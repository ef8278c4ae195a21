import AccessTree.Block.Limit
import AccessTree.Block.Wire
import AccessTree.Edit.Basic

/-! # Forms

The body of a request is an object with the fields of a form. The forms for edits have the tree and
the path in common; trees are checked against the limits before they are read. Every reader takes
the whole body and places issues inside it. -/

namespace AccessTree.Form

open Schema

/-- Where the block comes from that is attached. -/
inductive TemplateSource where
  | catalog (id : String)
  | inline (block : Block)

/-- The form of an edit: the tree and the path of the slot's owner. -/
structure EditForm where
  root : Block
  path : Path

/-- The form for attaching a template. -/
structure AttachForm where
  edit : EditForm
  slot : String
  template : TemplateSource

/-- The form for detaching a block. -/
structure DetachForm where
  edit : EditForm
  slot : String

/-- The form for writing a literal. -/
structure ValueForm where
  edit : EditForm
  slot : String
  value : Literal

/-- The form for picking a comparator. -/
structure ComparatorForm where
  edit : EditForm
  slot : String
  comparator : String

/-- The form for compiling blocks. -/
structure CompileForm where
  blocks : List Block
  strict : Option Bool

/-! ### Fields -/

/-- Checks raw trees against the limits before they are read. -/
def withinLimits {α : Type} (limits : TreeLimits) (read : Json → Checked α) (v : Json) :
    Checked α :=
  match RawTree.check limits v with
  | .error f => .reject (.rule f.message) v
  | .ok _ => read v

/-- A tree within the limits. -/
def tree (limits : TreeLimits) (v : Json) : Checked Block :=
  withinLimits limits (Block.ofJson .byFields) v

/-- The slot that an edit is for. -/
def slotField (fields : Fields) : Checked String :=
  required fields ⟨"slotId", "slot_id"⟩ nonemptyText

/-- The common part of the forms for edits. -/
def editPart (limits : TreeLimits) (fields : Fields) : Checked EditForm :=
  EditForm.mk <$> required fields (.same "root") (tree limits)
    <*> optional fields (.same "path") [] (list text)

/-! ### Forms -/

/-- A form from the fields of a body. -/
def ofBody {α : Type} (read : Fields → Checked α) : Json → Checked α
  | .obj fields => read fields
  | v => .reject .noFields v

/-- Exactly one source of a template. -/
def templateSource (fields : Fields) (id : Option String) (block : Option Block) :
    Checked TemplateSource :=
  match id, block with
  | some id, none => .ok (.catalog id)
  | none, some block => .ok (.inline block)
  | _, _ =>
    .reject (.rule "Exactly one of templateId or template must be provided") (.obj fields)

/-- The form for attaching a template. -/
def attach (limits : TreeLimits) : Json → Checked AttachForm :=
  ofBody fun fields =>
    Checked.andThen
      ((fun edit slot id block => (edit, slot, id, block)) <$> editPart limits fields
        <*> slotField fields
        <*> optional fields ⟨"templateId", "template_id"⟩ none (nullable text)
        <*> optional fields (.same "template") none (nullable (tree limits)))
      fun (edit, slot, id, block) => AttachForm.mk edit slot <$> templateSource fields id block

/-- The form for detaching a block. -/
def detach (limits : TreeLimits) : Json → Checked DetachForm :=
  ofBody fun fields => DetachForm.mk <$> editPart limits fields <*> slotField fields

/-- The form for writing a literal. -/
def value (limits : TreeLimits) : Json → Checked ValueForm :=
  ofBody fun fields =>
    ValueForm.mk <$> editPart limits fields <*> slotField fields
      <*> required fields (.same "value") literal

/-- The form for picking a comparator. -/
def comparator (limits : TreeLimits) : Json → Checked ComparatorForm :=
  ofBody fun fields =>
    ComparatorForm.mk <$> editPart limits fields <*> slotField fields
      <*> required fields (.same "comparator") text

/-- The form for adding a parameter slot. -/
def parameter (limits : TreeLimits) : Json → Checked EditForm := ofBody (editPart limits)

/-- The form for compiling blocks. -/
def compile (limits : TreeLimits) : Json → Checked CompileForm :=
  ofBody fun fields =>
    CompileForm.mk <$> optional fields (.same "blocks") []
        (withinLimits limits (list (Block.ofJson .byFields)))
      <*> optional fields (.same "strict") none (nullable truth)

/-- The form for validating a document. -/
def validate : Json → Checked Fields :=
  ofBody fun fields => required fields (.same "condition") object

end AccessTree.Form
