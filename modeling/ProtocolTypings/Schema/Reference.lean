import ProtocolTypings.Schema.Domain

/-!
# References between types

A reference names a type of its own domain, or, with a point in it, a type of any domain. The unresolved ones are
those that no domain of the list declares; they are listed in increasing order, each once.
-/

namespace ProtocolTypings

mutual
/-- The targets of all references in a shape, in order. -/
def Shape.references : Shape → List String
  | .ref _ target => [target]
  | .array _ items => items.references
  | .object _ properties => referencesOfAll properties
  | .bareArray _ | .openObject _ | .primitive _ _ _ | .unknown _ => []

def referencesOfAll : List Property → List String
  | [] => []
  | p :: ps => p.references ++ referencesOfAll ps

def Property.references : Property → List String
  | ⟨_, shape, _, _, _⟩ => shape.references
end

/-- The shapes of the types, then those of parameters and results, then those of event parameters. -/
def Domain.shapes (d : Domain) : List Shape :=
  d.types.map (·.shape) ++
    d.commands.flatMap (fun c => (c.parameters.getD [] ++ c.returns.getD []).map (·.shape)) ++
    d.events.flatMap (fun e => (e.parameters.getD []).map (·.shape))

namespace Schema

/-- A target as seen from outside its domain. -/
def qualify (domain target : String) : String :=
  if target.toList.contains '.' then target else domain ++ "." ++ target

def declaredTypes (domains : List Domain) : List String :=
  domains.flatMap fun d => d.types.map fun t => d.name ++ "." ++ t.id

def qualifiedReferences (domains : List Domain) : List String :=
  domains.flatMap fun d => d.shapes.flatMap fun s => s.references.map (qualify d.name)

/-- Enter a text into an increasing list, unless it is there. -/
def insertOrdered (s : String) : List String → List String
  | [] => [s]
  | t :: ts => if s < t then s :: t :: ts else if s = t then t :: ts else t :: insertOrdered s ts

def unresolved (domains : List Domain) : List String :=
  let declared := declaredTypes domains
  ((qualifiedReferences domains).filter (!declared.contains ·)).foldr insertOrdered []

end Schema

end ProtocolTypings
