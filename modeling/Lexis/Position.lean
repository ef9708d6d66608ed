import Lexis.Decimal
import Lexis.Text.Quoted

/-!
Places in a text. A `Position` is reached by walking over characters from the start: it counts all
of them, the line feeds, and those since the last line feed. A `Location` is what a report shows:
the name of the text, a line and a column counted from one, and the offset.
-/

namespace Lexis

/-- A place in a text, with everything before it counted. -/
structure Position where
  /-- The characters before the place. -/
  offset : Nat
  /-- The number of its line, counted from one. -/
  line : Nat
  /-- The characters before it on its line. -/
  column : Nat
  deriving DecidableEq

/-- A place as reports name it. Its numbers may be any integers, since reports can be made of
places that no text has. -/
structure Location where
  file : String
  line : Int
  column : Int
  offset : Int
  deriving DecidableEq

namespace Position

def start : Position := ⟨0, 1, 0⟩

/-- The place behind one more character. Only the line feed starts a line. -/
def next (p : Position) (c : Char) : Position :=
  if c = '\n' then ⟨p.offset + 1, p.line + 1, 0⟩ else ⟨p.offset + 1, p.line, p.column + 1⟩

/-- The place behind a text that starts at `p`. -/
def after (p : Position) (cs : List Char) : Position := cs.foldl next p

@[simp] theorem after_nil (p : Position) : p.after [] = p := rfl

@[simp] theorem after_cons (p : Position) (c : Char) (cs : List Char) :
    p.after (c :: cs) = (p.next c).after cs := rfl

theorem after_append (p : Position) (cs ds : List Char) :
    p.after (cs ++ ds) = (p.after cs).after ds := List.foldl_append

@[simp] theorem offset_next (p : Position) (c : Char) : (p.next c).offset = p.offset + 1 := by
  unfold next
  split <;> rfl

@[simp] theorem offset_after (p : Position) (cs : List Char) :
    (p.after cs).offset = p.offset + cs.length := by
  induction cs generalizing p with
  | nil => rfl
  | cons c cs ih => simp [ih, Nat.add_assoc, Nat.add_comm 1]

/-- The place as reports on the named text give it. -/
def locate (p : Position) (file : String) : Location :=
  ⟨file, p.line, p.column + 1, p.offset⟩

end Position

namespace Location

/-- The place in short: name, line and column. -/
def text (location : Location) : String :=
  location.file ++ ":" ++ Decimal.ofInt location.line ++ ":" ++ Decimal.ofInt location.column

/-- The place in full, for debugging. -/
def debug (location : Location) : String :=
  "SourceLocation(" ++ Text.quoted location.file ++ ", " ++ Decimal.ofInt location.line ++ ", " ++
    Decimal.ofInt location.column ++ ", " ++ Decimal.ofInt location.offset ++ ")"

end Location

end Lexis
