import KnowledgeBase.ModelError
import KnowledgeBase.SortedMap

/-!
The terms of an entity: labels and descriptions, one for each language, and groups of
aliases. Terms are bounded in length, and a group of aliases is never empty and holds no
alias twice.
-/

namespace KnowledgeBase

structure Term where
  language : String
  text : String
deriving DecidableEq

/-- Refuses a text with more characters than a term may have. -/
def checkTermLength (field text : String) : Except ModelError Unit :=
  if maxTermLength < text.length then
    .error (.lengthExceedsLimit field text.length maxTermLength)
  else
    .ok ()

abbrev TermList := SortedMap String String

def TermList.set (terms : TermList) (language text : String) : Except ModelError TermList := do
  checkTermLength "term" text
  return terms.insert language text

abbrev AliasGroups := SortedMap String (List String)

namespace AliasGroups

def group (groups : AliasGroups) (language : String) : List String :=
  (groups.get? language).getD []

/-- Replaces the group of a language; repeated aliases are dropped, and a group without
aliases is removed. -/
def set (groups : AliasGroups) (language : String) (aliases : List String) :
    Except ModelError AliasGroups := do
  aliases.forM (checkTermLength "alias")
  match aliases.eraseDups with
  | [] => return groups.erase language
  | distinct => return groups.insert language distinct

/-- Adds aliases to the end of a group. -/
def add (groups : AliasGroups) (language : String) (aliases : List String) :
    Except ModelError AliasGroups :=
  AliasGroups.set groups language (AliasGroups.group groups language ++ aliases)

end AliasGroups

structure Fingerprint where
  labels : TermList := .empty
  descriptions : TermList := .empty
  aliases : AliasGroups := .empty
deriving DecidableEq

namespace Fingerprint

def empty : Fingerprint := {}

def isEmpty (fingerprint : Fingerprint) : Bool :=
  fingerprint.labels.isEmpty && fingerprint.descriptions.isEmpty && fingerprint.aliases.isEmpty

def setLabel (fingerprint : Fingerprint) (language text : String) :
    Except ModelError Fingerprint := do
  return { fingerprint with labels := ← TermList.set fingerprint.labels language text }

def setDescription (fingerprint : Fingerprint) (language text : String) :
    Except ModelError Fingerprint := do
  return { fingerprint with descriptions := ← TermList.set fingerprint.descriptions language text }

def setAliases (fingerprint : Fingerprint) (language : String) (aliases : List String) :
    Except ModelError Fingerprint := do
  return { fingerprint with aliases := ← AliasGroups.set fingerprint.aliases language aliases }

def addAliases (fingerprint : Fingerprint) (language : String) (aliases : List String) :
    Except ModelError Fingerprint := do
  return { fingerprint with aliases := ← AliasGroups.add fingerprint.aliases language aliases }

def removeLabel (fingerprint : Fingerprint) (language : String) : Fingerprint :=
  { fingerprint with labels := fingerprint.labels.erase language }

def removeDescription (fingerprint : Fingerprint) (language : String) : Fingerprint :=
  { fingerprint with descriptions := fingerprint.descriptions.erase language }

def removeAliases (fingerprint : Fingerprint) (language : String) : Fingerprint :=
  { fingerprint with aliases := fingerprint.aliases.erase language }

end Fingerprint

/-- Languages in the order in which a reader prefers them. -/
structure LanguageChain where
  languages : List String
deriving DecidableEq

namespace LanguageChain

def ofList (languages : List String) : LanguageChain := ⟨languages.eraseDups⟩

/-- The term in the first language of the chain that has one. -/
def pick? (chain : LanguageChain) (terms : TermList) : Option Term :=
  chain.languages.findSome? fun language => (terms.get? language).map (Term.mk language)

end LanguageChain

end KnowledgeBase
