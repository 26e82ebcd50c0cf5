import RestClient.Text.Basic
import RestClient.Encoding

namespace RestClient.Path

/-- The base without its trailing slashes, then the template; an empty template adds nothing, and
an empty path is the root. -/
def join (base template : String) : String :=
  let base := Text.dropTrailingSlashes base
  if template.isEmpty then if base.isEmpty then "/" else base
  else if template.startsWith "/" then base ++ template
  else base ++ "/" ++ template

inductive Segment where
  | literal (text : String)
  | placeholder (name : String)
  deriving DecidableEq

/-- The text of a placeholder. -/
def slot (name : String) : String := "\x7b" ++ name ++ "\x7d"

/-- A placeholder that does not end as it should; it opens `position` bytes into the text. -/
structure Malformed where
  template : String
  position : Nat
  deriving DecidableEq

def Malformed.message (e : Malformed) : String :=
  s!"malformed placeholder at byte {e.position} in '{e.template}'"

/-- A placeholder for which a rendering has no value. -/
structure Unfilled where
  placeholder : String
  deriving DecidableEq

def Unfilled.message (e : Unfilled) : String :=
  s!"no value for placeholder '{slot e.placeholder}'"

structure Template where
  segments : List Segment
  deriving DecidableEq

namespace Segment

def text : Segment → String
  | .literal text => text
  | .placeholder name => slot name

def placeholder? : Segment → Option String
  | .literal _ => none
  | .placeholder name => some name

/-- A literal keeps its text, and a placeholder takes its encoded value. -/
def render (value : String → Option String) : Segment → Except Unfilled String
  | .literal text => .ok text
  | .placeholder name =>
    match value name with
    | some text => .ok (Encoding.encodeComponent text)
    | none => .error ⟨name⟩

end Segment

namespace Template

/-- The literal that ends where a placeholder or the text does; `chars` is in reverse. -/
def literalSegments (chars : List Char) : List Segment :=
  if chars.isEmpty then [] else [.literal (String.ofList chars.reverse)]

mutual

/-- Reads on in a literal of which `pending` is read, `position` bytes into the text. The error is
the place of the brace that opens a malformed placeholder. -/
def inLiteral (pending : List Char) (position : Nat) : List Char → Except Nat (List Segment)
  | [] => .ok (literalSegments pending)
  | c :: cs =>
    if c = '\x7b' then
      (literalSegments pending ++ ·) <$> inPlaceholder [] position (position + 1) cs
    else inLiteral (c :: pending) (position + c.utf8Size) cs

/-- Reads on in a placeholder that opened at `opened` and of whose name `pending` is read. -/
def inPlaceholder (pending : List Char) (opened position : Nat) :
    List Char → Except Nat (List Segment)
  | [] => .error opened
  | c :: cs =>
    if c = '\x7d' then
      if pending.isEmpty then .error opened
      else (.placeholder (String.ofList pending.reverse) :: ·) <$> inLiteral [] (position + 1) cs
    else if c = '\x7b' then .error opened
    else inPlaceholder (c :: pending) opened (position + c.utf8Size) cs

end

/-- A placeholder's name is not empty and holds no brace; a closing brace outside a placeholder is
literal. -/
def parse (text : String) : Except Malformed Template :=
  match inLiteral [] 0 text.toList with
  | .ok segments => .ok ⟨segments⟩
  | .error position => .error ⟨text, position⟩

/-- The template as it was written. -/
def text (t : Template) : String := String.join (t.segments.map Segment.text)

def placeholders (t : Template) : List String := t.segments.filterMap Segment.placeholder?

/-- The path with every placeholder filled in; the first one without a value is the error. -/
def render (t : Template) (value : String → Option String) : Except Unfilled String :=
  String.join <$> t.segments.mapM (Segment.render value)

end Template
end RestClient.Path
