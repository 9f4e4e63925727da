import PluginAgent.Text.Split

namespace PluginAgent

open Text

inductive NameFlaw where
  | empty
  | emptySegment
  | leadingDigit
  | badCharacter
  deriving DecidableEq, Repr

def NameFlaw.reason : NameFlaw → String
  | empty => "name must not be empty"
  | emptySegment => "name must not contain an empty segment"
  | leadingDigit => "segment must not start with a digit"
  | badCharacter => "segments may only contain ASCII alphanumerics, '_' and '$'"

def NameFlaw.message (flaw : NameFlaw) (name : String) : String :=
  s!"invalid class name '{name}': {flaw.reason}"

namespace ClassName

def isNameChar (c : Char) : Bool :=
  c.isAlphanum || c == '_' || c == '$'

def segmentFlaw? : List Char → Option NameFlaw
  | [] => some .emptySegment
  | c :: r =>
      if c.isDigit then some .leadingDigit
      else if (c :: r).all isNameChar then none
      else some .badCharacter

def flaw? (name : List Char) : Option NameFlaw :=
  if name.isEmpty then some .empty else (splitOn '.' name).findSome? segmentFlaw?

end ClassName

structure ClassName where
  text : String
  flawless : ClassName.flaw? text.toList = none

namespace ClassName

theorem ext {a b : ClassName} (h : a.text = b.text) : a = b := by
  cases a; cases b; cases h; rfl

theorem text_inj {a b : ClassName} : a.text = b.text ↔ a = b :=
  ⟨ext, congrArg text⟩

instance : DecidableEq ClassName := fun a b =>
  if h : a.text = b.text then isTrue (ext h) else isFalse fun e => h (e ▸ rfl)

instance : Repr ClassName := ⟨fun c n => reprPrec c.text n⟩

def ofString (name : String) : Except NameFlaw ClassName :=
  match h : flaw? name.toList with
  | none => .ok ⟨name, h⟩
  | some flaw => .error flaw

def isValid (name : String) : Bool :=
  (flaw? name.toList).isNone

def entryPath (c : ClassName) : String :=
  String.ofList (replaceChar '.' '/' c.text.toList ++ ".class".toList)

/-- The order of the UTF-8 bytes of two texts is that of their characters. -/
def sort (names : List ClassName) : List ClassName :=
  names.mergeSort fun a b => decide (a.text ≤ b.text)

theorem ofString_text (c : ClassName) : ofString c.text = .ok c := by
  unfold ofString
  split
  · rfl
  · rename_i flaw h
    have := c.flawless
    rw [h] at this
    cases this

theorem ofString_ok_iff {name : String} {c : ClassName} :
    ofString name = .ok c ↔ c.text = name := by
  constructor
  · intro h
    unfold ofString at h
    split at h
    · cases h; rfl
    · cases h
  · rintro rfl
    exact ofString_text c

end ClassName

end PluginAgent
