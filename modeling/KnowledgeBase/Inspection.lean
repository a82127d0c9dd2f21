import KnowledgeBase.Change.Envelope

/-!
A report on an encoded change, for reading by people: what it is about, how much it changes,
and the changed labels, claims and links.
-/

namespace KnowledgeBase.Inspection

/-- At most the first eighty characters of a text; a mark shows that it has more bytes. -/
def preview (text : String) : String :=
  let shown := String.ofList (text.toList.take 80)
  if 80 < text.utf8ByteSize then shown ++ "..." else shown

def valueText : DataValue → String
  | .string value => "\"" ++ preview value ++ "\""
  | .monolingualText language text => "\"" ++ text ++ "\"@" ++ language
  | .quantity q => q.amount ++ " (" ++ q.unit ++ ")"
  | .time t => "TIME(" ++ t.time ++ ", precision=" ++ toString t.precision.toNat ++ ")"
  | .coordinate c =>
      "POINT(" ++ Binary64.Layout.plain.text c.latitude ++ ", " ++
        Binary64.Layout.plain.text c.longitude ++ ")"
  | .entityId id => id.text

def snakText (snak : Snak) : String :=
  snak.property.text ++ " = " ++
    match snak.dataValue? with
    | some value => valueText value
    | none => "<" ++ snak.kind.name ++ ">"

def statementText (statement : Statement) : String :=
  let count (n : Nat) (what : String) : String := if n = 0 then "" else s!" [{n} {what}]"
  snakText statement.mainSnak ++ count statement.qualifiers.size "qualifiers" ++
    count statement.references.size "references"

def labelLine (language : String) : DiffOp String → String
  | .add new => s!"  + label {language}: {new}"
  | .remove old => s!"  - label {language}: {old}"
  | .change old new => s!"  ~ label {language}: {old} -> {new}"

def claimLines (key : String) : DiffOp Statement → List String
  | .add new => [s!"  + claim {key}: " ++ statementText new]
  | .remove old => [s!"  - claim {key}: " ++ statementText old]
  | .change old new =>
      [s!"  ~ claim {key}", "      old: " ++ statementText old, "      new: " ++ statementText new]

def linkLine (site : String) : DiffOp SiteLink → String
  | .add new => s!"  + link {site}: " ++ new.page
  | .remove old => s!"  - link {site}: " ++ old.page
  | .change _ new => s!"  + link {site}: " ++ new.page

def infoLines (change : Change) : List String :=
  ["", "=== Change Info ===", "Type: " ++ change.typeName, "Entity: " ++ change.entity.text,
    "Revision: " ++ toString change.revision.toNat] ++
    if change.timestamp = 0 then []
    else ["Timestamp: " ++ toString change.timestamp.toInt ++ " (µs since epoch)"]

def countLines (diff : EntityDiff) : List String :=
  let total := diff.size
  ["", s!"=== Diff ({total} operations) ==="] ++
    diff.sizes.map fun (part, count) => "  " ++ part.name ++ s!": {count}"

/-- Claims are shown up to the twentieth. -/
def operationLines (diff : EntityDiff) : List String :=
  diff.labels.toList.map (fun (language, op) => labelLine language op) ++
    (diff.claims.toList.take 20).flatMap (fun (key, op) => claimLines key op) ++
    diff.siteLinks.toList.map fun (site, op) => linkLine site op

def changeLines (change : Change) : List String :=
  infoLines change ++ countLines change.diff ++ operationLines change.diff

/-- The report on some bytes, as far as it goes, and why it goes no further. -/
def report (bytes : Bytes) : List String × Option EnvelopeError :=
  let size := bytes.length
  let first := s!"File size: {size} bytes"
  match Envelope.decode bytes with
  | .ok change => (first :: changeLines change, none)
  | .error error => ([first], some error)

end KnowledgeBase.Inspection
