import DspFirmware.Pattern.Parse

/-!
Which patterns are accepted.

A pattern is read, its depth is limited, and then every part of it is looked at under the flags that
hold there. Patterns match whole characters, so that nothing in them may match a byte that is none.
Tables of characters are not at hand: a pattern that needs one, to name a class or to tell upper
case from lower case beyond ASCII, is refused. Last of all a condition on words is refused unless a
flag confines it to ASCII.
-/

namespace DspFirmware.Pattern

/-- How deep the parts of a pattern may lie in each other. -/
def depthLimit : Nat := 250

mutual

/-- The first part of a class that has parts itself and lies too deep. -/
def ClassTree.tooDeep? : (room : Nat) → ClassTree → Option Span
  | 0, .bracketed _ _ span => some span
  | 0, .union _ span => some span
  | 0, .operation _ _ _ span => some span
  | room + 1, .bracketed _ content _ => content.tooDeep? room
  | room + 1, .union items _ => ClassTree.anyTooDeep? room items
  | room + 1, .operation _ left right _ => (left.tooDeep? room).or (right.tooDeep? room)
  | _, .nothing _ => none
  | _, .literal _ => none
  | _, .range _ _ _ => none
  | _, .ascii _ _ => none
  | _, .unicode _ => none
  | _, .perl _ _ => none

/-- The first part of some classes that lies too deep. -/
def ClassTree.anyTooDeep? : (room : Nat) → List ClassTree → Option Span
  | _, [] => none
  | room, item :: rest => (item.tooDeep? room).or (ClassTree.anyTooDeep? room rest)

end

mutual

/-- The first part of a pattern that has parts itself and lies too deep. -/
def Tree.tooDeep? : (room : Nat) → Tree → Option Span
  | room, .bracketed content => content.tooDeep? room
  | 0, .repetition _ span => some span
  | 0, .group _ _ span => some span
  | 0, .alternation _ span => some span
  | 0, .sequence _ span => some span
  | room + 1, .repetition operand _ => operand.tooDeep? room
  | room + 1, .group _ inner _ => inner.tooDeep? room
  | room + 1, .alternation branches _ => Tree.anyTooDeep? room branches
  | room + 1, .sequence items _ => Tree.anyTooDeep? room items
  | _, .empty _ => none
  | _, .flags _ _ => none
  | _, .literal _ => none
  | _, .dot _ => none
  | _, .assertion _ _ => none
  | _, .unicodeClass _ => none
  | _, .perlClass _ _ => none

/-- The first part of some patterns that lies too deep. -/
def Tree.anyTooDeep? : (room : Nat) → List Tree → Option Span
  | _, [] => none
  | room, item :: rest => (item.tooDeep? room).or (Tree.anyTooDeep? room rest)

end

/-- The flags that decide whether a part is accepted. -/
structure Mode where
  ignoreCase : Bool
  unicode : Bool
  deriving DecidableEq, Repr

namespace Mode

def start : Mode := ⟨false, true⟩

/-- The mode behind flags. -/
def change (mode : Mode) (flags : List Char) : Mode :=
  ⟨(flagState flags 'i').getD mode.ignoreCase, (flagState flags 'u').getD mode.unicode⟩

end Mode

/-- Refuses a part for a problem. -/
def refuseIf (condition : Bool) (problem : Problem) (span : Span) : Except Defect Unit :=
  if condition then .error ⟨problem, span, none⟩ else .ok ()

/-- What is known of the characters in a class. -/
inductive Content where
  | nothing
  | everything
  /-- Some characters, named one by one. -/
  | listed
  deriving DecidableEq, Repr

namespace Content

def union : Content → Content → Content
  | listed, _ => listed
  | _, listed => listed
  | nothing, nothing => nothing
  | _, _ => everything

def negate : Content → Content
  | nothing => everything
  | everything => nothing
  | listed => listed

/-- What an operation leaves of two classes. -/
def combine : SetOperation → Content → Content → Content
  | _, listed, _ => listed
  | _, _, listed => listed
  | .intersection, everything, everything => everything
  | .intersection, _, _ => nothing
  | .difference, everything, nothing => everything
  | .difference, _, _ => nothing
  | .symmetricDifference, everything, nothing => everything
  | .symmetricDifference, nothing, everything => everything
  | .symmetricDifference, _, _ => nothing

end Content

/-- Refuses to tell upper case from lower case in a class, unless all characters or none are in
it. -/
def inspectCase (mode : Mode) (content : Content) (span : Span) : Except Defect Unit :=
  refuseIf (mode.unicode && mode.ignoreCase && content == .listed) .caseUnavailable span

/-- Inspects a negation, which takes in bytes that are no characters where characters are bytes. -/
def inspectNegation (mode : Mode) (negated : Bool) (span : Span) : Except Defect Unit :=
  refuseIf (!mode.unicode && negated) .invalidUtf8 span

/-- Inspects a character on its own or in a class. -/
def inspectLiteral (mode : Mode) (literal : Literal) : Except Defect Unit :=
  refuseIf (!mode.unicode && literal.byByte && 127 < literal.char.toNat) .invalidUtf8 literal.span

/-- Inspects a character in a class, which has room for bytes only where characters are bytes. -/
def inspectMember (mode : Mode) (literal : Literal) : Except Defect Unit := do
  inspectLiteral mode literal
  refuseIf (!mode.unicode && 127 < literal.char.toNat) .unicodeNotAllowed literal.span

def inspectUnicode (mode : Mode) (span : Span) : Except Defect Unit :=
  refuseIf true (if mode.unicode then .unknownProperty else .unicodeNotAllowed) span

def inspectPerl (mode : Mode) (negated : Bool) (span : Span) : Except Defect Unit := do
  refuseIf mode.unicode .perlClassUnavailable span
  inspectNegation mode negated span

mutual

/-- Inspects a class, and tells what is in it. -/
def ClassTree.inspect (mode : Mode) : ClassTree → Except Defect Content
  | .nothing _ => .ok .nothing
  | .literal character => do
      inspectMember mode character
      return .listed
  | .range first last _ => do
      inspectMember mode first
      inspectMember mode last
      return .listed
  | .ascii negated span => do
      inspectCase mode .listed span
      inspectNegation mode negated span
      return .listed
  | .unicode span => do
      inspectUnicode mode span
      return .listed
  | .perl negated span => do
      inspectPerl mode negated span
      return .listed
  | .bracketed negated content span => do
      let content ← content.inspect mode
      inspectCase mode content span
      inspectNegation mode negated span
      return if negated then content.negate else content
  | .union items _ => ClassTree.inspectAll mode items
  | .operation sign left right _ => do
      let onLeft ← left.inspect mode
      let onRight ← right.inspect mode
      inspectCase mode onRight right.span
      inspectCase mode onLeft left.span
      return onLeft.combine sign onRight

/-- Inspects classes, and tells what is in one of them. -/
def ClassTree.inspectAll (mode : Mode) : List ClassTree → Except Defect Content
  | [] => .ok .nothing
  | item :: rest => do
      let first ← item.inspect mode
      let others ← ClassTree.inspectAll mode rest
      return first.union others

end

/-- What inspecting a part has found: the mode behind it, and whether it asks for words beyond
ASCII. -/
structure Finding where
  mode : Mode
  words : Bool
  deriving DecidableEq, Repr

mutual

/-- Inspects a pattern. Flags hold up to the end of the group they stand in. -/
def Tree.inspect (mode : Mode) : Tree → Except Defect Finding
  | .empty _ => .ok ⟨mode, false⟩
  | .flags letters _ => .ok ⟨mode.change letters, false⟩
  | .literal character => do
      inspectLiteral mode character
      inspectCase mode .listed character.span
      return ⟨mode, false⟩
  | .dot span => do
      refuseIf (!mode.unicode) .invalidUtf8 span
      return ⟨mode, false⟩
  | .assertion onWords _ => .ok ⟨mode, onWords && mode.unicode⟩
  | .unicodeClass span => do
      inspectUnicode mode span
      return ⟨mode, false⟩
  | .perlClass negated span => do
      inspectPerl mode negated span
      return ⟨mode, false⟩
  | .bracketed content => do
      let _ ← content.inspect mode
      return ⟨mode, false⟩
  | .repetition operand _ => operand.inspect mode
  | .group letters inner _ => do
      let found ← inner.inspect (mode.change letters)
      return ⟨mode, found.words⟩
  | .alternation branches _ => Tree.inspectAll mode branches
  | .sequence items _ => Tree.inspectAll mode items

/-- Inspects patterns, each under the flags that hold behind the one before. -/
def Tree.inspectAll (mode : Mode) : List Tree → Except Defect Finding
  | [] => .ok ⟨mode, false⟩
  | item :: rest => do
      let first ← item.inspect mode
      let others ← Tree.inspectAll first.mode rest
      return ⟨others.mode, first.words || others.words⟩

end

inductive Refusal where
  | defective (pattern : List Char) (defect : Defect)
  /-- A condition on words of all scripts. -/
  | wordBoundary
  deriving DecidableEq, Repr

/-- The causes that a report gives, the outermost first. -/
def Refusal.causes : Refusal → List String
  | defective pattern defect =>
      ["error building NFA", "error parsing regex", defect.report pattern]
  | wordBoundary =>
      ["unsupported regex feature for DFAs: cannot build DFAs for regexes with Unicode word "
        ++ "boundaries; switch to ASCII word boundaries, or heuristically enable Unicode word "
        ++ "boundaries or use a different regex engine"]

def inspect (pattern : List Char) : Except Defect Finding := do
  let tree ← parse pattern
  match tree.tooDeep? depthLimit with
  | some span => .error ⟨.tooDeep depthLimit, span, none⟩
  | none => tree.inspect .start

def check (pattern : List Char) : Except Refusal Unit :=
  match inspect pattern with
  | .error defect => .error (.defective pattern defect)
  | .ok found => if found.words then .error .wordBoundary else .ok ()

end DspFirmware.Pattern
