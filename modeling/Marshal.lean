import Marshal.Array.DType
import Marshal.Array.Element
import Marshal.Array.Index
import Marshal.Array.Layout
import Marshal.Binary.Arithmetic
import Marshal.Binary.Format
import Marshal.Call.Binding
import Marshal.Call.Param
import Marshal.Config
import Marshal.Decimal.Shortest
import Marshal.Decimal.Text
import Marshal.Error
import Marshal.Host.Construct
import Marshal.Host.Convert
import Marshal.Host.Exporter
import Marshal.Host.Extension
import Marshal.Host.Fault
import Marshal.Host.Literal
import Marshal.Host.Object
import Marshal.Log
import Marshal.Module
import Marshal.Naming
import Marshal.NativeType
import Marshal.Program.Basic
import Marshal.Program.Native
import Marshal.Program.Run
import Marshal.Sample.Account
import Marshal.Sample.ArrayModule
import Marshal.Sample.BasicModule
import Marshal.Sample.Catalogue
import Marshal.Sample.Functions
import Marshal.Sample.State
import Marshal.Size
import Marshal.Text.Blank
import Marshal.Text.Hex
import Marshal.Text.Letter
import Marshal.Text.Printable
import Marshal.Text.Quoted
import Marshal.Toml.Item
import Marshal.Toml.Reader
import Marshal.Ty.Basic
import Marshal.Ty.Convert
import Marshal.Ty.Reader
import Marshal.Value.Basic
import Marshal.Value.Nesting
import Marshal.Value.Order
import Marshal.Value.Text
import Marshal.Width
import Marshal.World.Array
import Marshal.World.Basic
import Marshal.World.Handle
import Marshal.World.Kept
import Marshal.Proofs.Array.Extent
import Marshal.Proofs.Array.Packed
import Marshal.Proofs.Array.Slice
import Marshal.Proofs.Array.Settled
import Marshal.Proofs.Array.Laws
import Marshal.Proofs.Array.Fit
import Marshal.Proofs.Array.Tiling
import Marshal.Proofs.Array.Count
import Marshal.Proofs.Array.Order
import Marshal.Proofs.Array.Enumeration
import Marshal.Proofs.World.Store
import Marshal.Proofs.Program.Lasting
import Marshal.Proofs.Program.Views
import Marshal.Proofs.Program.Aliasing
import Marshal.Proofs.Program.Exclusion
import Marshal.Proofs.Program.Invariant
import Marshal.Proofs.Program.Sharing
import Marshal.Proofs.Program.Discipline
import Marshal.Proofs.Program.Balance
import Marshal.Proofs.Program.Holding
import Marshal.Proofs.Program.Lifecycle
import Marshal.Proofs.Program.Numbering
import Marshal.Proofs.Call.Members
import Marshal.Proofs.Ty.Lossless
import Marshal.Proofs.Value.Equality
import Marshal.Proofs.Module.Naming
import Marshal.Proofs.Sample.Addition
import Marshal.Proofs.Sample.Accumulation
import Marshal.Proofs.World.Readers
import Marshal.Proofs.Host.Depth
import Marshal.Proofs.Program.Dispatch
import Marshal.Proofs.Module.Blame
import Marshal.Proofs.Call.Assignment
import Marshal.Proofs.Array.Overlap
import Marshal.Proofs.World.Contiguous
import Marshal.Proofs.World.Allocation
import Marshal.Proofs.World.Elements
import Marshal.Proofs.Naming.Words
import Marshal.Proofs.Ty.Location
import Marshal.Proofs.Program.Ending
import Marshal.Proofs.Program.Provenance
import Marshal.Proofs.Module.Containment
