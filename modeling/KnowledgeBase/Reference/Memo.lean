import KnowledgeBase.ArrayForm.Statement

/-!
References that keep their hash. A hash is computed when it is first asked for and kept until
the snaks change. A list is searched for a hash from its front, and the references that are
passed keep theirs. References are made and changed apart from the list and then put into it.
-/

namespace KnowledgeBase

structure MemoReference where
  snaks : SnakList
  kept? : Option String := none

namespace MemoReference

/-- A reference whose hash has not been asked for. -/
def ofSnaks (snaks : SnakList) : MemoReference := { snaks }

/-- The hash as it is told: the one that is kept, if there is one. -/
def hash (reference : MemoReference) : String := reference.kept?.getD reference.snaks.hash

/-- The reference after its hash has been told. -/
def keepHash (reference : MemoReference) : MemoReference :=
  { reference with kept? := some reference.hash }

def add (reference : MemoReference) (snak : Snak) : MemoReference :=
  if reference.snaks.contains snak then reference else ofSnaks (reference.snaks.add snak)

def remove (reference : MemoReference) (snak : Snak) : MemoReference :=
  if reference.snaks.contains snak then ofSnaks (reference.snaks.remove snak) else reference

def content (reference : MemoReference) : Reference := ⟨reference.snaks⟩

end MemoReference

structure MemoReferenceList where
  references : List MemoReference

namespace MemoReferenceList

def empty : MemoReferenceList := ⟨[]⟩

def hashes (list : MemoReferenceList) : List String := list.references.map MemoReference.hash

def content (list : MemoReferenceList) : ReferenceList :=
  ⟨list.references.map MemoReference.content⟩

/-- Looks for a hash from the front. Gives the place where it is found, and the references
with the hashes that have been told on the way. -/
def seek (hash : String) : List MemoReference → List MemoReference × Option Nat
  | [] => ([], none)
  | first :: others =>
      if first.hash == hash then (first.keepHash :: others, some 0)
      else
        let (others, place?) := seek hash others
        (first.keepHash :: others, place?.map (· + 1))

def lookUp (list : MemoReferenceList) (hash : String) : MemoReferenceList × Option Nat :=
  let (references, place?) := seek hash list.references
  (⟨references⟩, place?)

/-- Adds a reference at the end, unless the list has its hash. Tells whether it did. -/
def add (list : MemoReferenceList) (reference : MemoReference) : MemoReferenceList × Bool :=
  match seek reference.hash list.references with
  | (references, some _) => (⟨references⟩, false)
  | (references, none) => (⟨references ++ [reference.keepHash]⟩, true)

/-- Puts a reference at `index` of the others, in place of the one with its hash. -/
def insertAt (list : MemoReferenceList) (reference : MemoReference) (index : Nat) :
    MemoReferenceList :=
  let others :=
    match seek reference.hash list.references with
    | (references, some place) => references.eraseIdx place
    | (references, none) => references
  ⟨others.insertIdx (min index others.length) reference.keepHash⟩

/-- Takes the reference with a hash out of the list. -/
def remove (list : MemoReferenceList) (hash : String) :
    MemoReferenceList × Option MemoReference :=
  match seek hash list.references with
  | (references, some place) => (⟨references.eraseIdx place⟩, references[place]?)
  | (references, none) => (⟨references⟩, none)

def ofList (references : List MemoReference) : MemoReferenceList :=
  references.foldl (fun list reference => (list.add reference).1) empty

def ofArray (array : Json) : Except ArrayError MemoReferenceList := do
  let references : List Reference ← (← array.expectArray "refs").mapM ArrayForm.ofArray
  return .ofList (references.map fun reference => .ofSnaks reference.snaks)

end MemoReferenceList

/-- References that stand by themselves, and a list that is made of such ones. -/
structure ReferenceDesk where
  loose : List MemoReference
  list : MemoReferenceList

/-- What can be done at a desk. A loose reference is named by its place; nothing is done if
there is none. -/
inductive ReferenceAction where
  | create (snaks : SnakList)
  | addSnak (place : Nat) (snak : Snak)
  | removeSnak (place : Nat) (snak : Snak)
  | tellHash (place : Nat)
  | clone (place : Nat)
  | cloneMember (index : Nat)
  | tellMemberHash (index : Nat)
  | lookUp (hash : String)
  | addReference (place : Nat)
  | insertReference (place index : Nat)
  | removeByHash (hash : String)

namespace ReferenceDesk

def step (desk : ReferenceDesk) : ReferenceAction → ReferenceDesk
  | .create snaks => { desk with loose := desk.loose ++ [.ofSnaks snaks] }
  | .addSnak place snak => { desk with loose := desk.loose.modify place (·.add snak) }
  | .removeSnak place snak => { desk with loose := desk.loose.modify place (·.remove snak) }
  | .tellHash place => { desk with loose := desk.loose.modify place .keepHash }
  | .clone place => { desk with loose := desk.loose ++ desk.loose[place]?.toList }
  | .cloneMember index =>
      { desk with loose := desk.loose ++ desk.list.references[index]?.toList }
  | .tellMemberHash index =>
      { desk with list := ⟨desk.list.references.modify index .keepHash⟩ }
  | .lookUp hash => { desk with list := (desk.list.lookUp hash).1 }
  | .addReference place =>
      match desk.loose[place]? with
      | some reference =>
          { loose := desk.loose.eraseIdx place, list := (desk.list.add reference).1 }
      | none => desk
  | .insertReference place index =>
      match desk.loose[place]? with
      | some reference =>
          { loose := desk.loose.eraseIdx place, list := desk.list.insertAt reference index }
      | none => desk
  | .removeByHash hash =>
      let (list, removed?) := desk.list.remove hash
      { loose := desk.loose ++ removed?.toList, list }

def run (desk : ReferenceDesk) (actions : List ReferenceAction) : ReferenceDesk :=
  actions.foldl step desk

/-- Desks at which work on an empty list, or on one that is read, has led to. -/
inductive Reached : ReferenceDesk → Prop
  | ofEmpty (actions : List ReferenceAction) : Reached (run ⟨[], .empty⟩ actions)
  | ofArray {array : Json} {list : MemoReferenceList}
      (h : MemoReferenceList.ofArray array = .ok list) (actions : List ReferenceAction) :
      Reached (run ⟨[], list⟩ actions)

end ReferenceDesk

end KnowledgeBase
