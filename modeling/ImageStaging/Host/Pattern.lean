import ImageStaging.Text.Basic

/-!
# Patterns of names

A star stands for any text, a question mark for any character, and brackets for one of some
characters. A quoted character stands for itself.
-/

namespace ImageStaging.Host

/-- A character and whether it was quoted. -/
abbrev Mark := Char × Bool

inductive Glyph
  | one (c : Char)
  | any
  | run
  | oneOf (negated : Bool) (ranges : List (Char × Char))

abbrev Pattern := List Glyph

namespace Glyph

/-- The ranges of a named class of characters. -/
def classRanges (name : Text) : List (Char × Char) :=
  match String.ofList name with
  | "alpha" => [('a', 'z'), ('A', 'Z')]
  | "digit" => [('0', '9')]
  | "alnum" => [('a', 'z'), ('A', 'Z'), ('0', '9')]
  | "upper" => [('A', 'Z')]
  | "lower" => [('a', 'z')]
  | "space" => [('\t', '\r'), (' ', ' ')]
  | "blank" => [('\t', '\t'), (' ', ' ')]
  | "punct" => [('!', '/'), (':', '@'), ('[', '\x60'), ('\x7B', '~')]
  | "xdigit" => [('0', '9'), ('a', 'f'), ('A', 'F')]
  | _ => []

def accepts (glyph : Glyph) (c : Char) : Bool :=
  match glyph with
  | .one d => c = d
  | .any => true
  | .run => false
  | .oneOf negated ranges =>
    (ranges.any fun (first, last) => first ≤ c && c ≤ last) != negated

end Glyph

namespace Pattern

/-- The ranges between brackets, up to the closing one, and what follows it. A bracket that comes
first belongs to the ranges. -/
def readRanges : Nat → Bool → List (Char × Char) → List Mark →
    Option (List (Char × Char) × List Mark)
  | 0, _, _, _ => none
  | _, _, _, [] => none
  | fuel + 1, first, ranges, (c, quoted) :: rest =>
    if c = ']' && !quoted && !first then some (ranges, rest)
    else
      match c, rest with
      | '[', (':', _) :: more =>
        let name := more.takeWhile (·.1 ≠ ':')
        readRanges fuel false (ranges ++ Glyph.classRanges (name.map Prod.fst))
          (more.drop (name.length + 2))
      | _, ('-', false) :: (last, lastQuoted) :: more =>
        if last = ']' && !lastQuoted then readRanges fuel false (ranges ++ [(c, c)]) rest
        else readRanges fuel false (ranges ++ [(c, last)]) more
      | _, _ => readRanges fuel false (ranges ++ [(c, c)]) rest

/-- A set between brackets, whose opening one has been read. -/
def readSet? (marks : List Mark) : Option (Glyph × List Mark) :=
  let (negated, body) :=
    match marks with
    | ('!', false) :: rest => (true, rest)
    | ('^', false) :: rest => (true, rest)
    | _ => (false, marks)
  (readRanges body.length true [] body).map fun (ranges, rest) => (.oneOf negated ranges, rest)

def ofMarksWithin : Nat → List Mark → Pattern
  | 0, _ => []
  | _, [] => []
  | fuel + 1, (c, quoted) :: rest =>
    if quoted then .one c :: ofMarksWithin fuel rest
    else
      match c with
      | '*' => .run :: ofMarksWithin fuel rest
      | '?' => .any :: ofMarksWithin fuel rest
      | '[' =>
        match readSet? rest with
        | some (glyph, more) => glyph :: ofMarksWithin fuel more
        | none => .one c :: ofMarksWithin fuel rest
      | _ => .one c :: ofMarksWithin fuel rest

def ofMarks (marks : List Mark) : Pattern :=
  ofMarksWithin marks.length marks

/-- The pattern of an unquoted text, in which a backslash quotes the next character. -/
def ofText (text : Text) : Pattern :=
  ofMarks (marksOf text)
where
  marksOf : Text → List Mark
    | [] => []
    | '\\' :: c :: rest => (c, true) :: marksOf rest
    | c :: rest => (c, false) :: marksOf rest

def accepts : Pattern → Text → Bool
  | [], text => text.isEmpty
  | .run :: pattern, [] => accepts pattern []
  | .run :: pattern, c :: rest => accepts pattern (c :: rest) || accepts (.run :: pattern) rest
  | _ :: _, [] => false
  | glyph :: pattern, c :: rest => glyph.accepts c && accepts pattern rest
termination_by pattern text => pattern.length + text.length

/-- A name that begins with a dot is only accepted by a pattern that does so too. -/
def acceptsName (pattern : Pattern) (name : Text) : Bool :=
  accepts pattern name &&
    (name.head? ≠ some '.' ||
      match pattern with
      | .one '.' :: _ => true
      | _ => false)

/-- The text without the shortest or the longest part that the pattern accepts at its start. -/
def cutStart (longest : Bool) (pattern : Pattern) (text : Text) : Text :=
  let sizes := (List.range (text.length + 1)).filter fun size => accepts pattern (text.take size)
  match if longest then sizes.getLast? else sizes.head? with
  | some size => text.drop size
  | none => text

/-- The same at its end. -/
def cutEnd (longest : Bool) (pattern : Pattern) (text : Text) : Text :=
  let sizes := (List.range (text.length + 1)).filter fun size => accepts pattern (text.drop size)
  match if longest then sizes.head? else sizes.getLast? with
  | some size => text.take size
  | none => text

end Pattern

end ImageStaging.Host
