import Inventory.Command.Run
import Inventory.Main
import Inventory.Proofs.AttributeNames
import Inventory.Proofs.InstanceHierarchy
import Inventory.Proofs.InstanceKeys
import Inventory.Proofs.InstanceListing
import Inventory.Proofs.ParentForest
import Inventory.Proofs.SourceUse
import Inventory.Proofs.StoreIntegrity
import Inventory.Proofs.TypeNames
import Inventory.Repository.Deletion
import Inventory.Repository.Instances
import Inventory.Schema.Catalog
import Inventory.Proofs.InstanceUpserts
import Inventory.Proofs.BatchDeletion
import Inventory.Proofs.TypeDeletion
import Inventory.Proofs.InstanceLinks
import Inventory.Proofs.Graph.Parts
import Inventory.Proofs.Repository.AttributeEffects
import Inventory.Proofs.TypeDefinitions
import Inventory.Proofs.TypeRoundTrip
import Inventory.Proofs.SchemaAgreement
import Inventory.Proofs.ScopeIsolation
import Inventory.Proofs.OppositeWalks
import Inventory.Proofs.QueryTexts
import Inventory.Proofs.ClosedQueries
import Inventory.Proofs.InstancePages
import Inventory.Proofs.Retries
import Inventory.Proofs.DefaultDepth
import Inventory.Proofs.TypeRules
import Inventory.Proofs.IntegerComparison
import Inventory.Proofs.PrefixSearches
import Inventory.Proofs.RelatedSearches
import Inventory.Proofs.MonotoneSearches
import Inventory.Proofs.RecordBinding
import Inventory.Proofs.SourceColumns
import Inventory.Proofs.SchemaAdditions
import Inventory.Proofs.SchemaAlterations
import Inventory.Proofs.TypeDescendants
import Inventory.Proofs.InstanceLookup
import Inventory.Proofs.CompleteDeletions
import Inventory.Proofs.TopologyTexts
import Inventory.Proofs.PatternTexts
import Inventory.Proofs.SinglePredicates
import Inventory.Proofs.DocumentRoundTrip
import Inventory.Proofs.QuotedTexts
import Inventory.Proofs.ParentChanges
import Inventory.Proofs.UidTexts
