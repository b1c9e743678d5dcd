import SessionGateway.Auth.Credentials
import SessionGateway.Auth.Directory
import SessionGateway.CommandLine.Arguments
import SessionGateway.CommandLine.Startup
import SessionGateway.Config.Address
import SessionGateway.Config.Certificate
import SessionGateway.Config.Loading
import SessionGateway.Config.Reading
import SessionGateway.Config.Schema
import SessionGateway.Config.Validation
import SessionGateway.Dispatch.Arguments
import SessionGateway.Dispatch.Authentication
import SessionGateway.Dispatch.Bracket
import SessionGateway.Dispatch.Call
import SessionGateway.Dispatch.Service
import SessionGateway.Dispatch.Stage
import SessionGateway.Gateway.Basic
import SessionGateway.Http.Header
import SessionGateway.Http.Names
import SessionGateway.Http.Request
import SessionGateway.Json.Parser
import SessionGateway.Json.Printer
import SessionGateway.Json.Token
import SessionGateway.Json.Value
import SessionGateway.Lifecycle.Daemon
import SessionGateway.Lifecycle.Shutdown
import SessionGateway.Media.Kind
import SessionGateway.Media.Signature
import SessionGateway.Media.Type
import SessionGateway.Multipart.Boundary
import SessionGateway.Multipart.Disposition
import SessionGateway.Multipart.Parts
import SessionGateway.Notes.Solution
import SessionGateway.Notes.Store
import SessionGateway.Number.Binary64
import SessionGateway.Number.Shortest
import SessionGateway.Payload.Basic
import SessionGateway.Payload.Decoding
import SessionGateway.Payload.Encoding
import SessionGateway.Pool.SessionPool
import SessionGateway.Pool.Slots
import SessionGateway.Response.CrossOrigin
import SessionGateway.Response.Draft
import SessionGateway.Response.Error
import SessionGateway.Routing.Path
import SessionGateway.Session.Bridge
import SessionGateway.Session.Event
import SessionGateway.Session.Operation
import SessionGateway.Session.Properties
import SessionGateway.Session.Script
import SessionGateway.Session.Solution
import SessionGateway.Text.Base64
import SessionGateway.Text.Basic
import SessionGateway.Text.Blank
import SessionGateway.Text.Charset
import SessionGateway.Text.Numeral
import SessionGateway.Text.Percent
import SessionGateway.Text.Printable
import SessionGateway.Text.Quoted
import SessionGateway.Text.Utf8
import SessionGateway.Toml.Node
import SessionGateway.Toml.Parser
import SessionGateway.Toml.Scalar
import SessionGateway.Xml.Markup
import SessionGateway.Xml.Reading
import SessionGateway.Xml.Scalar
import SessionGateway.Xml.Writing
import SessionGateway.Proofs.Dispatch.Runs
import SessionGateway.Proofs.Session.Isolation
import SessionGateway.Proofs.Pool.Interleaving
import SessionGateway.Proofs.Pool.Conservation
import SessionGateway.Proofs.Dispatch.Admission
import SessionGateway.Proofs.Dispatch.Traces
import SessionGateway.Proofs.Gateway.Authorization
import SessionGateway.Proofs.Pool.Refinement
import SessionGateway.Proofs.Xml.Scalars
import SessionGateway.Proofs.Xml.Reading
import SessionGateway.Proofs.Xml.RoundTrip
import SessionGateway.Proofs.Dispatch.Parameters
import SessionGateway.Proofs.Gateway.Provenance
import SessionGateway.Proofs.Dispatch.Oblivious
import SessionGateway.Proofs.Gateway.Pooling
import SessionGateway.Proofs.Gateway.Reloading
import SessionGateway.Proofs.Text.Utf8
import SessionGateway.Proofs.Text.Base64
import SessionGateway.Proofs.Json.Tokens
import SessionGateway.Proofs.Json.RoundTrip
import SessionGateway.Proofs.Http.Headers
import SessionGateway.Proofs.Session.Entries
import SessionGateway.Proofs.Session.HeaderBridge
import SessionGateway.Proofs.Session.Cookies
import SessionGateway.Proofs.Session.CookieBridge
import SessionGateway.Proofs.Session.Jar
import SessionGateway.Proofs.Dispatch.Invocations
import SessionGateway.Proofs.Dispatch.Responses
import SessionGateway.Proofs.Gateway.Failures
import SessionGateway.Proofs.Gateway.Visits
import SessionGateway.Proofs.Gateway.Journeys
import SessionGateway.Proofs.Response.Edits
import SessionGateway.Proofs.Dispatch.Editing
import SessionGateway.Proofs.Gateway.Rejection
import SessionGateway.Proofs.Json.Characters
import SessionGateway.Proofs.Payload.Describing
import SessionGateway.Proofs.Multipart.Attributes
import SessionGateway.Proofs.Multipart.Rendering
import SessionGateway.Proofs.Payload.Forms
import SessionGateway.Proofs.Payload.Nesting
import SessionGateway.Proofs.Lifecycle.Signals
import SessionGateway.Proofs.Lifecycle.Watching
import SessionGateway.Proofs.Dispatch.Drafting
import SessionGateway.Proofs.Gateway.CrossOrigin
import SessionGateway.Proofs.Text.Numerals
import SessionGateway.Proofs.Text.Percent
import SessionGateway.Proofs.Routing.Path
import SessionGateway.Proofs.Gateway.Reaching
import SessionGateway.Proofs.Gateway.PathArguments
import SessionGateway.Proofs.Xml.Spelling
import SessionGateway.Proofs.Xml.Tags
import SessionGateway.Proofs.Xml.Tokens
import SessionGateway.Proofs.Xml.Trees
import SessionGateway.Proofs.Xml.Siblings
import SessionGateway.Proofs.Xml.Output
import SessionGateway.Proofs.Json.Integers
import SessionGateway.Proofs.Json.Nesting
import SessionGateway.Proofs.Xml.Proper
import SessionGateway.Proofs.Payload.Integers
import SessionGateway.Proofs.Payload.Answering
import SessionGateway.Proofs.Media.Classifying
import SessionGateway.Proofs.Dispatch.Charsets
import SessionGateway.Proofs.Pool.Occupancy
import SessionGateway.Proofs.Routing.Reading
import SessionGateway.Proofs.Text.Strictness
import SessionGateway.Proofs.Auth.Credentials
import SessionGateway.Proofs.Gateway.Verbs
import SessionGateway.Proofs.Gateway.Options
import SessionGateway.Proofs.Dispatch.Queries
import SessionGateway.Proofs.Notes.Histories
