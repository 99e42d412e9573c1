import CallAdvice.Call.Entry
import CallAdvice.Config.Schema
import CallAdvice.Host.Script
import CallAdvice.Rule.Custom
import CallAdvice.Session.Build
import CallAdvice.Proofs.Pattern.Token
import CallAdvice.Proofs.Form.ReadSyntax
import CallAdvice.Proofs.Rule.Table
import CallAdvice.Proofs.Rule.Dispatch
import CallAdvice.Proofs.Rule.Rewriting
import CallAdvice.Proofs.Rule.Requirement
import CallAdvice.Proofs.Host.Probe
import CallAdvice.Proofs.Host.Scratch
import CallAdvice.Proofs.Engine.Work
import CallAdvice.Proofs.Engine.Knowledge
import CallAdvice.Proofs.Engine.Honest
import CallAdvice.Proofs.Engine.Probing
import CallAdvice.Proofs.Session.Work
import CallAdvice.Proofs.Session.Knowledge
import CallAdvice.Proofs.Session.WriteOnce
import CallAdvice.Proofs.Session.CacheFree
import CallAdvice.Proofs.Session.Scratch
import CallAdvice.Proofs.Session.Provenance
import CallAdvice.Proofs.Session.Evidence
import CallAdvice.Proofs.Engine.Refit
import CallAdvice.Proofs.Rule.FirstMatch
import CallAdvice.Proofs.Engine.Gate
import CallAdvice.Proofs.Session.Gate
import CallAdvice.Proofs.Session.LiveSelection
import CallAdvice.Proofs.Observer.Live
import CallAdvice.Proofs.Session.ObserverSets
import CallAdvice.Proofs.Session.Recorders
import CallAdvice.Proofs.Engine.Outcome
import CallAdvice.Proofs.Session.Laziness
import CallAdvice.Proofs.Config.Load
import CallAdvice.Proofs.Session.Accounting
import CallAdvice.Proofs.Call.Spelling
import CallAdvice.Proofs.Selection.Configured
import CallAdvice.Proofs.Diagnostic.Message
import CallAdvice.Proofs.Engine.Pins
import CallAdvice.Proofs.Session.Refit
import CallAdvice.Proofs.Session.Pinned
import CallAdvice.Proofs.Selection.Image
import CallAdvice.Proofs.Pattern.Composition
import CallAdvice.Proofs.Rule.History
import CallAdvice.Proofs.Pattern.Rounds
import CallAdvice.Proofs.Engine.Story
import CallAdvice.Proofs.Session.Story
