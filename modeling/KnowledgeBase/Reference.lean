import KnowledgeBase.Snak

/-!
References: the snaks that say where a statement comes from. Two references are equal when
their content hashes are, so the interleaving of properties does not matter. A list of
references holds one reference for each hash.
-/

namespace KnowledgeBase

structure Reference where
  snaks : SnakList
deriving DecidableEq, Inhabited

namespace Reference

def empty : Reference := ⟨.empty⟩

def ofSnaks (snaks : List Snak) : Reference := ⟨.ofList snaks⟩

def hash (reference : Reference) : String := reference.snaks.hash

instance : BEq Reference := ⟨fun first second => first.hash == second.hash⟩

def add (reference : Reference) (snak : Snak) : Reference := ⟨reference.snaks.add snak⟩

def remove (reference : Reference) (snak : Snak) : Reference := ⟨reference.snaks.remove snak⟩

def isEmpty (reference : Reference) : Bool := reference.snaks.isEmpty

end Reference

structure ReferenceList where
  references : List Reference
deriving DecidableEq, Inhabited

namespace ReferenceList

def empty : ReferenceList := ⟨[]⟩

instance : BEq ReferenceList := ⟨fun first second => first.references == second.references⟩

def size (list : ReferenceList) : Nat := list.references.length

def isEmpty (list : ReferenceList) : Bool := list.references.isEmpty

def indexOf? (list : ReferenceList) (hash : String) : Option Nat :=
  list.references.findIdx? (·.hash == hash)

def contains (list : ReferenceList) (hash : String) : Bool := (list.indexOf? hash).isSome

def get? (list : ReferenceList) (hash : String) : Option Reference :=
  list.references.find? (·.hash == hash)

def remove (list : ReferenceList) (hash : String) : ReferenceList :=
  match list.indexOf? hash with
  | some index => ⟨list.references.eraseIdx index⟩
  | none => list

/-- The list with `reference` at its end, or the same list if it has the hash. -/
def add (list : ReferenceList) (reference : Reference) : ReferenceList :=
  if list.contains reference.hash then list else ⟨list.references ++ [reference]⟩

/-- Puts `reference` at `index` of the other references, at their end if the index is beyond
it. A reference with the same hash is replaced. -/
def insertAt (list : ReferenceList) (reference : Reference) (index : Nat) : ReferenceList :=
  let others := (list.remove reference.hash).references
  ⟨others.insertIdx (min index others.length) reference⟩

def ofList (references : List Reference) : ReferenceList := references.foldl add empty

def hashes (list : ReferenceList) : List String := list.references.map Reference.hash

def canonicalBytes (list : ReferenceList) : Bytes :=
  Bytes.text "references" ++ Bytes.varint list.size ++ list.hashes.flatMap Bytes.text

def hash (list : ReferenceList) : String := contentHash list.canonicalBytes

end ReferenceList

end KnowledgeBase
