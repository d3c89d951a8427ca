import Inventory.Listing.Request
import Inventory.Repository.Basic
import Inventory.Repository.Rows

/-!
Metadata sources: one to a name and scope, with all columns that were ever given for it.
-/

namespace Inventory.Repository

open Query Store Listing

def sourceVar : String := "metadata"

def sourcesBlock : String := "Metadatas"

def loadSources (operation : String) (b : Block) : Op (List MetadataSource) := do
  let answer ← read operation ⟨sourcesBlock, [], [b.select sourceSelections]⟩ .empty
  reading (loadRows SourceRow.ofDocument? SourceRow.load (answer.rows sourcesBlock))

/-- Metadata nodes in any of the scopes. -/
def sourceFilter (scopes : List String) : Filter :=
  .and [.eq Vocabulary.typeName (.str Vocabulary.metadataMarker), scopeFilter scopes]

def sourceByName? (name : String) (scopes : List String) : Op (Option MetadataSource) :=
  List.head? <$> loadSources "metadata_by_source"
    ((Block.named sourcesBlock (.eq Vocabulary.metadataSource (.str name))).filtered (sourceFilter scopes))

def sourceMutation (s : MetadataSource) : Mutation :=
  let node := Subject.var sourceVar
  { condition := none
    set := [.text node Vocabulary.typeName Vocabulary.metadataMarker,
      .text node Vocabulary.nodeType Vocabulary.metadataNodeType, .text node Vocabulary.metadataSource s.sourceName,
      .text node Vocabulary.metadataType s.kind.name, .text node Vocabulary.scopes s.scope] ++
      s.columns.items.map fun c => Quad.text node Vocabulary.metadataAttributes c
    delete := [] }

/-- Adds a source, or the columns of one that is there. -/
def upsertSource (s : MetadataSource) : Op MetadataSource := do
  let operation := "upsert_metadata"
  let own := ((Block.var (.eq Vocabulary.metadataSource (.str s.sourceName))).bindAs sourceVar).filtered
    (sourceFilter [s.scope])
  discard <| write operation (some ⟨"UpsertMetadata", [], [own]⟩) [sourceMutation s]
  match ← sourceByName? s.sourceName [s.scope] with
  | some s => return s
  | none => throw (.internal operation .sourceMissing)

/-- The sources of a kind by name. -/
def sources (kind : MetadataKind) (scopes : List String) : Op (List MetadataSource) :=
  loadSources "metadata_sources"
    (((Block.named sourcesBlock (.eq Vocabulary.metadataType (.str kind.name))).filtered (scopeFilter scopes)).orderBy
      Vocabulary.metadataSource .asc)

def sourceById (id : String) (scopes : List String) : Op MetadataSource := do
  let what := s!"metadata source {id}"
  let u ← orNotFound what (Uid.parse? id)
  let found ← loadSources "metadata_with_id"
    ((Block.named sourcesBlock (.uid [.node u])).filtered (sourceFilter scopes))
  orNotFound what found.head?

end Inventory.Repository
