import Preopt.Yaml.Document
import Preopt.Yaml.V11
import Preopt.Yaml.V12

/-! Whole streams: text to documents. -/

namespace Preopt.Yaml

namespace V11

def grammar : Grammar where
  bareValues := false
  openEnds := false
  strictDirectives := false
  version major minor := major == 1 && (minor == 1 || minor == 2)
  addHandle handles handle lead :=
    if (handles.lookup handle).isSome then none else some (handles ++ [(handle, lead)])
  afterVersion handles := handles
  tag handles handle suffix :=
    if handle = "" then some ⟨"", suffix⟩
    else ((handles ++ [("!", "!"), ("!!", coreLead)]).lookup handle).map (⟨·, suffix⟩)

def documents (text : List Char) : Except String (List (Node String)) := do
  match tokens text with
  | .ok ts => Yaml.documents grammar ts
  | .error e => .error e.message

end V11

namespace V12

def grammar : Grammar where
  bareValues := true
  openEnds := true
  strictDirectives := true
  version _ _ := true
  addHandle _ handle lead := some [(handle, lead)]
  afterVersion _ := []
  tag handles handle suffix :=
    match handles.lookup handle with
    | some lead => some ⟨lead, suffix⟩
    | none =>
      if handle = "!!" then some ⟨coreLead, suffix⟩
      else if isHandle handle.toList then none
      else some ⟨handle, suffix⟩

def documents (text : List Char) : Except String (List (Node String)) := do
  match tokens text with
  | .ok ts => Yaml.documents grammar ts
  | .error e => .error e.message

end V12
end Preopt.Yaml
