import ReceiveOffload.Proofs.Announcements
import ReceiveOffload.Proofs.Checksums
import ReceiveOffload.Proofs.Conservation
import ReceiveOffload.Proofs.CounterTotals
import ReceiveOffload.Proofs.Datagrams
import ReceiveOffload.Proofs.Echoes
import ReceiveOffload.Proofs.Expiries
import ReceiveOffload.Proofs.FieldWrites
import ReceiveOffload.Proofs.Grammar
import ReceiveOffload.Proofs.HeaderSums
import ReceiveOffload.Proofs.Interleavings
import ReceiveOffload.Proofs.InternetSums
import ReceiveOffload.Proofs.Inventories
import ReceiveOffload.Proofs.Leases
import ReceiveOffload.Proofs.Listings
import ReceiveOffload.Proofs.Losses
import ReceiveOffload.Proofs.Ownership
import ReceiveOffload.Proofs.Promptness
import ReceiveOffload.Proofs.Replacements
import ReceiveOffload.Proofs.Reports
import ReceiveOffload.Proofs.Resegmentation
import ReceiveOffload.Proofs.Shards
import ReceiveOffload.Proofs.SharedHeaders
import ReceiveOffload.Proofs.Statistics
import ReceiveOffload.Proofs.Strides
import ReceiveOffload.Proofs.Summary
import ReceiveOffload.Proofs.Tenures
import ReceiveOffload.Proofs.Tickers
import ReceiveOffload.Proofs.TwinRuns
import ReceiveOffload.Proofs.VirtioHeaders
