/-!
Bounds on what a knowledge base holds and on what its encoded forms may claim to hold.
-/

namespace KnowledgeBase

/-- The largest number of an entity id. -/
def maxEntityNumber : Nat := 2147483647

/-- The most bytes of a statement's identifier. -/
def maxGuidBytes : Nat := 255

/-- The most characters of a label, a description or an alias. -/
def maxTermLength : Nat := 250

/-- The most bytes of a site's identifier or of a page's name. -/
def maxSiteLinkBytes : Nat := 512

/-- The most bytes of an encoded change that is not compressed. -/
def maxChangeBytes : Nat := 16 * 1024 * 1024

end KnowledgeBase
