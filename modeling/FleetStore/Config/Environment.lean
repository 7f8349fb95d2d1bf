import FleetStore.Json.Basic

/-! # References to the environment

A text may refer to a variable of the environment as `${NAME}` or, with a text
to fall back to, as `${NAME:-text}`. Expanding replaces every reference from
left to right; what it puts in is not searched again, and whatever is no
reference stays as it is.
-/

namespace FleetStore

/-- The variables of the environment; one whose value is not a text counts as unset. -/
abbrev Environment : Type := String → Option String

/-- The variables of a list, of which the first counts. -/
def Environment.ofList (entries : List (String × String)) : Environment :=
  fun name => Dict.find name entries

structure Reference where
  name : String
  /-- What an unset variable is replaced with. -/
  fallback : String
deriving DecidableEq, Repr

namespace Reference

/-- What a reference stands for; a variable that is set to nothing is set. -/
def value (env : Environment) (r : Reference) : String :=
  (env r.name).getD r.fallback

def isNameChar (c : Char) : Bool :=
  c.isAlphanum || c == '_'

/-- The end of a reference after its name. -/
def readEnd? (name : String) : List Char → Option (Reference × List Char)
  | '\x7d' :: rest => some (⟨name, ""⟩, rest)
  | ':' :: '-' :: cs =>
      match cs.dropWhile (· != '\x7d') with
      | [] => none
      | _ :: rest => some (⟨name, String.ofList (cs.takeWhile (· != '\x7d'))⟩, rest)
  | _ => none

/-- The reference that follows a dollar sign, and what stands after it. -/
def read? : List Char → Option (Reference × List Char)
  | '\x7b' :: cs =>
      match cs.takeWhile isNameChar with
      | [] => none
      | first :: more =>
          if first.isDigit then none
          else readEnd? (String.ofList (first :: more)) (cs.dropWhile isNameChar)
  | _ => none

theorem length_dropWhile_le (p : Char → Bool) (cs : List Char) :
    (cs.dropWhile p).length ≤ cs.length :=
  (List.dropWhile_suffix p).length_le

theorem readEnd?_shorter {name : String} {cs rest : List Char} {r : Reference}
    (h : readEnd? name cs = some (r, rest)) : rest.length < cs.length := by
  unfold readEnd? at h
  split at h
  · simp only [Option.some.injEq, Prod.mk.injEq] at h
    simp [← h.2]
  · next inner =>
      have bound := length_dropWhile_le (· != '\x7d') inner
      split at h
      · cases h
      · next found =>
          simp only [Option.some.injEq, Prod.mk.injEq] at h
          simp only [found, List.length_cons] at bound
          simp only [← h.2, List.length_cons]
          omega
  · cases h

theorem read?_shorter {cs rest : List Char} {r : Reference}
    (h : read? cs = some (r, rest)) : rest.length < cs.length := by
  unfold read? at h
  split at h
  · next inner =>
      have bound := length_dropWhile_le isNameChar inner
      split at h
      · cases h
      · split at h
        · cases h
        · have := readEnd?_shorter h
          simp only [List.length_cons]
          omega
  · cases h

end Reference

/-- A part of a text: a character that stands for itself, or a reference. -/
inductive Segment where
  | char (c : Char)
  | reference (r : Reference)
deriving DecidableEq, Repr

namespace Segment

/-- Cuts a text into its parts: a reference is found wherever one can be read. -/
def split : List Char → List Segment
  | [] => []
  | '$' :: cs =>
      match h : Reference.read? cs with
      | some (r, rest) =>
          have := Reference.read?_shorter h
          .reference r :: split rest
      | none => .char '$' :: split cs
  | c :: cs => .char c :: split cs
termination_by cs => cs.length
decreasing_by
  · simp only [List.length_cons]
    omega
  · simp
  · simp

def expand (env : Environment) : Segment → List Char
  | .char c => [c]
  | .reference r => (r.value env).toList

/-- The variable that a part of a text refers to. -/
def variableName? : Segment → Option String
  | .char _ => none
  | .reference r => some r.name

end Segment

namespace Environment

def expand (env : Environment) (text : String) : String :=
  String.ofList ((Segment.split text.toList).flatMap (Segment.expand env))

mutual
/-- Replaces the references in all strings of a document; the names of members
stay as they are. -/
def expandStrings (env : Environment) : Json → Json
  | .str s => .str (env.expand s)
  | .arr items => .arr (expandItems env items)
  | .obj members => .obj (expandMembers env members)
  | j => j

def expandItems (env : Environment) : List Json → List Json
  | [] => []
  | item :: rest => expandStrings env item :: expandItems env rest

def expandMembers (env : Environment) : List (String × Json) → List (String × Json)
  | [] => []
  | (name, value) :: rest => (name, expandStrings env value) :: expandMembers env rest
end

end Environment

/-- The variables that a text refers to. -/
def referencesOf (text : String) : List String :=
  (Segment.split text.toList).filterMap Segment.variableName?

mutual
/-- The variables that the strings of a document refer to. -/
def Json.references : Json → List String
  | .str s => referencesOf s
  | .arr items => itemReferences items
  | .obj members => memberReferences members
  | _ => []

def Json.itemReferences : List Json → List String
  | [] => []
  | item :: rest => item.references ++ itemReferences rest

def Json.memberReferences : List (String × Json) → List String
  | [] => []
  | (_, value) :: rest => value.references ++ memberReferences rest
end

end FleetStore
