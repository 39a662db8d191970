import ModularHost.Main
import ModularHost.Module.Custody
import ModularHost.Module.Discovery
import ModularHost.Module.Inspect
import ModularHost.Proofs.Container.Factory
import ModularHost.Proofs.Container.Ledger
import ModularHost.Proofs.Container.Refinement
import ModularHost.Server.Basic
import ModularHost.Settings.File
import ModularHost.Proofs.Container.Run
import ModularHost.Proofs.Module.Admission
import ModularHost.Proofs.Module.SharedTypes
import ModularHost.Proofs.Module.Registration
import ModularHost.Proofs.Module.SingleLoad
import ModularHost.Proofs.Module.Whitelist
import ModularHost.Proofs.Container.Journal
import ModularHost.Proofs.Container.Lifetime
import ModularHost.Proofs.Container.Attempt
import ModularHost.Proofs.Connector.BringUp
import ModularHost.Proofs.Connector.Resolutions
import ModularHost.Proofs.Connector.Access
import ModularHost.Proofs.Asset.Contents
import ModularHost.Proofs.Asset.Identifier
import ModularHost.Proofs.Asset.Reading
import ModularHost.Proofs.Asset.Run
import ModularHost.Proofs.Module.Locality
import ModularHost.Proofs.Module.Advance
import ModularHost.Proofs.Module.Story
import ModularHost.Proofs.Module.Background
import ModularHost.Proofs.Module.Unhurried
import ModularHost.Proofs.Module.Requirements
import ModularHost.Proofs.Module.Publication
import ModularHost.Proofs.Container.Renaming
import ModularHost.Proofs.Module.Isolation
import ModularHost.Proofs.Module.Exchange
import ModularHost.Proofs.Module.Order
import ModularHost.Proofs.Module.Offers
import ModularHost.Proofs.Module.Books
import ModularHost.Proofs.Module.Ownership
import ModularHost.Proofs.FileName
import ModularHost.Proofs.Container.Outright
import ModularHost.Proofs.Server.Linked
import ModularHost.Proofs.Server.Connectors
import ModularHost.Proofs.Server.Start
import ModularHost.Proofs.Json.Scanning
import ModularHost.Proofs.Json.Reading
import ModularHost.Proofs.Json.Skipping
import ModularHost.Proofs.Json.Passing
import ModularHost.Proofs.Json.Agreement
import ModularHost.Proofs.Json.Printing
import ModularHost.Proofs.Connector.Request
import ModularHost.Proofs.Json.Records
import ModularHost.Proofs.Settings.Defaults
import ModularHost.Proofs.Connector.Faults
import ModularHost.Proofs.Module.Decision
import ModularHost.Proofs.Server.Loads
import ModularHost.Proofs.Server.Life
import ModularHost.Proofs.Module.Handles
import ModularHost.Proofs.Module.Leases
import ModularHost.Proofs.Module.Reclaiming
import ModularHost.Proofs.Container.Each
import ModularHost.Proofs.Container.Acyclic
import ModularHost.Proofs.Module.LinkedOrder
import ModularHost.Proofs.Module.Discovered
import ModularHost.Proofs.Json.Members
import ModularHost.Proofs.Json.Fields
import ModularHost.Proofs.Json.Readable
import ModularHost.Proofs.Asset.Form
import ModularHost.Proofs.Asset.RoundTrip
import ModularHost.Proofs.Settings.RoundTrip
import ModularHost.Proofs.Connector.Section
import ModularHost.Proofs.Toml.Pieces
import ModularHost.Proofs.Toml.Printing
import ModularHost.Proofs.Settings.Runs
import ModularHost.Proofs.Module.Breakdown
