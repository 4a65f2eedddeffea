import Relbase.Main
import Relbase.Proofs.Catalog.Coherence
import Relbase.Proofs.Query.Cursor
import Relbase.Proofs.Query.Quoting
import Relbase.Proofs.Query.Rescanning
import Relbase.Proofs.Registering
import Relbase.Proofs.RowFiles
import Relbase.Proofs.Session.Damage
import Relbase.Proofs.Session.Deletion
import Relbase.Proofs.Session.Durability
import Relbase.Proofs.Session.Existence
import Relbase.Proofs.Session.Frame
import Relbase.Proofs.Session.Insertion
import Relbase.Proofs.Session.Joining
import Relbase.Proofs.Session.Numbering
import Relbase.Proofs.Session.Purity
import Relbase.Proofs.Session.Recasing
import Relbase.Proofs.Session.Reloading
import Relbase.Proofs.Session.Responses
import Relbase.Proofs.Session.Selection
import Relbase.Proofs.Session.Switching
import Relbase.Proofs.Session.Updating
import Relbase.Proofs.Table.Alterations
import Relbase.Proofs.Table.Containing
import Relbase.Proofs.Table.Identifying
import Relbase.Proofs.Table.NameIndex
import Relbase.Proofs.Value.Literals
import Relbase.Proofs.Value.Ordering
