import PluginAgent.Path
import PluginAgent.Text.Utf8

namespace PluginAgent.Archive

open PluginAgent.Path

inductive EntryNameFlaw where
  | climbing (path : String)
  | notText (path : String)
  deriving DecidableEq, Repr

def EntryNameFlaw.message : EntryNameFlaw → String
  | climbing path => s!"unsafe entry path: {path}"
  | notText path => s!"non-UTF-8 entry path: {path}"

namespace EntryName

def slash : UInt8 := 47

def dot : UInt8 := 46

def namesOf (shown : String) : List (Component UInt8) → Except EntryNameFlaw (List (List Char))
  | [] => .ok []
  | .current :: rest => namesOf shown rest
  | .name part :: rest =>
    match Utf8.decode ⟨part.toArray⟩ with
    | .error _ => .error (.notText shown)
    | .ok text => (namesOf shown rest).map (text :: ·)
  | _ :: _ => .error (.climbing shown)

def ofPath (path : List UInt8) : Except EntryNameFlaw String :=
  (namesOf (Utf8.decodeLossy ⟨path.toArray⟩) (componentsOf slash dot path)).map fun names =>
    String.ofList (Text.joinWith ['/'] names)

end EntryName

end PluginAgent.Archive
