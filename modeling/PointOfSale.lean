import PointOfSale.Files.Disk
import PointOfSale.Main
import PointOfSale.Proofs.Order.Atomicity
import PointOfSale.Proofs.Order.Conservation
import PointOfSale.Proofs.Order.Interleaving
import PointOfSale.Proofs.Pricing.Refinement
import PointOfSale.Wire.Payment
import PointOfSale.Proofs.Ledger.Bookkeeping
import PointOfSale.Proofs.Ledger.Choices
import PointOfSale.Proofs.Ledger.Run
import PointOfSale.Proofs.Order.Charging
import PointOfSale.Proofs.Order.DryRun
import PointOfSale.Proofs.Order.Editing
import PointOfSale.Proofs.Decimal.Nearness
import PointOfSale.Proofs.Decimal.Restoring
import PointOfSale.Proofs.Order.Undoing
import PointOfSale.Proofs.Order.Totals
import PointOfSale.Proofs.Order.Checkout
import PointOfSale.Proofs.Json.Figure
import PointOfSale.Proofs.Json.Scanning
import PointOfSale.Proofs.Json.Printed
import PointOfSale.Proofs.Json.Record
import PointOfSale.Proofs.Wire.Menu
import PointOfSale.Proofs.Catalog
import PointOfSale.Proofs.CommandLine.Run
import PointOfSale.Proofs.CommandLine.Adjust
import PointOfSale.Proofs.Pricing.Spelling
import PointOfSale.Proofs.Order.Payment
import PointOfSale.Proofs.Decimal.Amount
import PointOfSale.Proofs.Ledger.Consumption
import PointOfSale.Proofs.Order.Sums
import PointOfSale.Proofs.Ledger.Reordering
import PointOfSale.Proofs.Decimal.Notation
import PointOfSale.Proofs.Literal.Notation
import PointOfSale.Proofs.Literal.Exactness
import PointOfSale.Proofs.ItemStore.Staleness
import PointOfSale.Proofs.Order.Taking
import PointOfSale.Proofs.Pricing.Faults
import PointOfSale.Proofs.Pricing.Pairing
import PointOfSale.Proofs.CommandLine.Taxes
