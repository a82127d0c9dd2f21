import KnowledgeBase.ModelError
import KnowledgeBase.SortedMap

/-!
Links from an item to its pages on sites. An item has one link for each site. The badges
of a link are a set of items, kept in ascending order.
-/

namespace KnowledgeBase

structure SiteLink where
  site : String
  page : String
  badges : List ItemId
deriving DecidableEq

/-- Puts an item among items of ascending numbers, unless it is there. -/
def insertBadge (badge : ItemId) : List ItemId → List ItemId
  | [] => [badge]
  | first :: rest =>
      if badge.number < first.number then badge :: first :: rest
      else if badge.number = first.number then first :: rest
      else first :: insertBadge badge rest

namespace SiteLink

def checkLength (field value : String) : Except ModelError Unit :=
  if maxSiteLinkBytes < value.utf8ByteSize then
    .error (.lengthExceedsLimit field value.utf8ByteSize maxSiteLinkBytes)
  else
    .ok ()

/-- The link with the given badges, in any order and number. -/
def create (site page : String) (badges : List ItemId) : Except ModelError SiteLink := do
  checkLength "site id" site
  checkLength "page name" page
  return ⟨site, page, badges.foldl (fun set badge => insertBadge badge set) []⟩

end SiteLink

abbrev SiteLinks := SortedMap String SiteLink

namespace SiteLinks

/-- Adds a link to a site that has none yet. -/
def add (links : SiteLinks) (link : SiteLink) : Except ModelError SiteLinks :=
  if links.contains link.site then .error (.duplicateSiteLink link.site)
  else .ok (links.insert link.site link)

/-- Adds or replaces the link to a site. -/
def set (links : SiteLinks) (link : SiteLink) : SiteLinks := links.insert link.site link

end SiteLinks

end KnowledgeBase
