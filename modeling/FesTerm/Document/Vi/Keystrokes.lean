import FesTerm.Document.Vi.Engine

/-!
# Keystrokes

A caller of the engine: every key is fed with the text and the caret as they are, an edit is applied
to the text before the next key, and the returned caret is passed back in. What a document does
beside, as undo, is no text the engine has described.
-/

namespace FesTerm.Document.Vi

/-- An engine between two keys, and the text and the caret it will be handed. -/
structure Editing where
  engine : ViEngine
  text : Text
  caret : Nat
deriving DecidableEq

@[reducible] def Build.release : Build := ⟨false⟩

@[reducible] def Unicode.ascii : Unicode := ⟨Char.isAlphanum⟩

namespace Editing

def opened (text : Text) (caret : Nat) : Editing := ⟨.new, text, caret⟩

variable [Unicode] [Build]

/-- One key. -/
def press (editing : Editing) (key : ViKey) : Option Editing := do
  let (engine, response) ← editing.engine.onKey key editing.text editing.caret
  match response.action with
  | .edit edits => return ⟨engine, ← applyEditsToString editing.text edits, response.caret⟩
  | _ => return ⟨engine, editing.text, response.caret⟩

/-- Keys, one after the other. -/
def type (editing : Editing) (keys : List Char) : Option Editing :=
  keys.foldlM (fun editing c => editing.press (.char c)) editing

omit [Unicode] [Build] in
/-- What a user sees: text, register, caret and mode. -/
def shown (editing : Editing) : Text × Register × Nat × ViMode :=
  (editing.text, editing.engine.register, editing.caret, editing.engine.mode)

end Editing

end FesTerm.Document.Vi
