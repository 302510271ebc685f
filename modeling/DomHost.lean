import DomHost.Document.Html
import DomHost.Edit.InstructionJson
import DomHost.Event.NativeJson
import DomHost.Host.Mount
import DomHost.Host.Run
import DomHost.Memory.View
import DomHost.Proofs.Forest.Labels
import DomHost.Proofs.Forest.Paths
import DomHost.Proofs.Store.WellFormed
import DomHost.Proofs.Outcome
import DomHost.Proofs.Follows
import DomHost.Proofs.Store.Edits
import DomHost.Proofs.Store.Operations
import DomHost.Proofs.Store.Links
import DomHost.Proofs.Binding
import DomHost.Proofs.Callback
import DomHost.Proofs.Callback.Sheds
import DomHost.Proofs.Document
import DomHost.Proofs.Scene.Release
import DomHost.Proofs.Scene.Assemble
import DomHost.Proofs.Scene.Execute
import DomHost.Proofs.Scene.Released
import DomHost.Proofs.Dispatch
import DomHost.Proofs.Host.Delegation
import DomHost.Proofs.Host.Calls
import DomHost.Proofs.Host.Consistency
import DomHost.Proofs.Edit.Reads
import DomHost.Proofs.Edit.RoundTrip
import DomHost.Proofs.Edit.Canonical
import DomHost.Proofs.Edit.Window
import DomHost.Proofs.Edit.Items
import DomHost.Proofs.Edit.Truncation
import DomHost.Proofs.Host.Batch
import DomHost.Proofs.Keeps
import DomHost.Proofs.Scene.Frame
import DomHost.Proofs.Host.Moments
import DomHost.Proofs.Host.Ledger
import DomHost.Proofs.Forest.Edges
import DomHost.Proofs.Store.Ancestry
import DomHost.Proofs.Store.Still
import DomHost.Proofs.Store.Moves
import DomHost.Proofs.Scene.Effects
import DomHost.Proofs.Scene.NewNodes
import DomHost.Proofs.Host.Rebinding
import DomHost.Proofs.Host.Prototypes
import DomHost.Proofs.Scene.Loose
import DomHost.Proofs.Scene.Still
import DomHost.Proofs.Scene.Sparing
import DomHost.Proofs.Scene.Tidiness
import DomHost.Proofs.Host.Leftovers
import DomHost.Proofs.Timer
import DomHost.Proofs.Timer.Runs
import DomHost.Proofs.Dispatch.Order
import DomHost.Proofs.Along
import DomHost.Proofs.Store.Contents
import DomHost.Proofs.Store.Accounts
import DomHost.Proofs.Store.Handles
import DomHost.Proofs.Listener.Delegates
import DomHost.Proofs.Store.Losses
import DomHost.Proofs.Scene.Coherent
import DomHost.Proofs.Scene.Attends
import DomHost.Proofs.Host.Attended
import DomHost.Proofs.Dispatch.Due
import DomHost.Proofs.Host.Staffed
import DomHost.Proofs.Host.Delivery
import DomHost.Proofs.Memory
import DomHost.Proofs.Memory.Runs
import DomHost.Proofs.Html
import DomHost.Proofs.Store.Rows
import DomHost.Proofs.Scene.Blueprint
import DomHost.Proofs.Scene.Building
import DomHost.Proofs.Scene.Saved
import DomHost.Proofs.Scene.Described
import DomHost.Proofs.Host.Loading
import DomHost.Proofs.Forest.Trees
import DomHost.Proofs.Store.Siblings
import DomHost.Proofs.Store.Gathering
import DomHost.Proofs.Scene.Gathering
import DomHost.Proofs.Cautious
import DomHost.Proofs.Store.Toggling
import DomHost.Proofs.Scene.Refusals
import DomHost.Proofs.Host.Refusals
import DomHost.Proofs.Forest.Refill
import DomHost.Proofs.Store.TextContent
import DomHost.Proofs.Scene.TextContent
import DomHost.Proofs.Host.TextContent
import DomHost.Proofs.Scene.Remnants
import DomHost.Proofs.Host.Remounting
import DomHost.Proofs.Host.Placeholders
import DomHost.Proofs.Host.Redefinition
import DomHost.Proofs.Document.Style
import DomHost.Proofs.Host.Styling
import DomHost.Proofs.Document.Children
import DomHost.Proofs.Store.Sprouts
import DomHost.Proofs.Store.Copies
import DomHost.Proofs.Store.AttributeKeys
import DomHost.Proofs.Scene.AttributeKeys
import DomHost.Proofs.Host.AttributeKeys
import DomHost.Markup.Convert
import DomHost.Proofs.Conversion
import DomHost.Proofs.Name
import DomHost.Proofs.StyleText
import DomHost.Proofs.Document.Values
import DomHost.Document.Walk
import DomHost.Proofs.Document.Fields
import DomHost.Store.Traversal
import DomHost.Listener.Layers
import DomHost.Proofs.Document.Ownership
import DomHost.Proofs.Listener.Layers
import DomHost.Proofs.Store.Traversal
import DomHost.Arena.Basic
import DomHost.Arena.Edit
import DomHost.Proofs.Arena.Cells
import DomHost.Proofs.Arena.Depicts
import DomHost.Proofs.Arena.Edits
import DomHost.Proofs.Arena.Linked
