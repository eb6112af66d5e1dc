import FleetWorkflow.Access.ApiKeys
import FleetWorkflow.Access.Authority
import FleetWorkflow.Access.Directory
import FleetWorkflow.Access.Guards
import FleetWorkflow.Access.Revocation
import FleetWorkflow.Agents.ClauseFindings
import FleetWorkflow.Agents.CompanyNames
import FleetWorkflow.Agents.DealerEffects
import FleetWorkflow.Agents.DealerOnboarding
import FleetWorkflow.Agents.DeclaredErrors
import FleetWorkflow.Agents.DevAgent
import FleetWorkflow.Agents.DevChanges
import FleetWorkflow.Agents.HrAgent
import FleetWorkflow.Agents.InsightsPublisher
import FleetWorkflow.Agents.InvoiceAgent
import FleetWorkflow.Agents.InvoiceEntries
import FleetWorkflow.Agents.InvoiceValidation
import FleetWorkflow.Agents.LegalReview
import FleetWorkflow.Agents.ListingQuality
import FleetWorkflow.Agents.NumberGrounding
import FleetWorkflow.Agents.NumberReading
import FleetWorkflow.Agents.PathGuard
import FleetWorkflow.Agents.Publication
import FleetWorkflow.Agents.QuoteMatching
import FleetWorkflow.Agents.QuotedNumbers
import FleetWorkflow.Agents.Replies
import FleetWorkflow.Agents.ReviewAccounts
import FleetWorkflow.Agents.ReviewReplies
import FleetWorkflow.Agents.RoleMatching
import FleetWorkflow.Agents.SeenNumbers
import FleetWorkflow.Agents.Sessions
import FleetWorkflow.Agents.SpelledDossiers
import FleetWorkflow.Agents.Tools
import FleetWorkflow.Agents.UnreadableDossiers
import FleetWorkflow.Agents.VehicleIntake
import FleetWorkflow.Answers.Attribution
import FleetWorkflow.Answers.Calls
import FleetWorkflow.Answers.ChatRules
import FleetWorkflow.Answers.Framing
import FleetWorkflow.Answers.Grounding
import FleetWorkflow.Answers.LocalAnswers
import FleetWorkflow.Answers.Query
import FleetWorkflow.Answers.Replies
import FleetWorkflow.Answers.Requests
import FleetWorkflow.Answers.Streams
import FleetWorkflow.Answers.TopHits
import FleetWorkflow.Answers.TraceMasking
import FleetWorkflow.Answers.Transcripts
import FleetWorkflow.Api.AgentsAdmin
import FleetWorkflow.Api.Approvals
import FleetWorkflow.Api.Auditing
import FleetWorkflow.Api.Budgets
import FleetWorkflow.Api.Collections
import FleetWorkflow.Api.Documents
import FleetWorkflow.Api.DuplicateInvoices
import FleetWorkflow.Api.Erasure
import FleetWorkflow.Api.Http
import FleetWorkflow.Api.Identifiers
import FleetWorkflow.Api.Linkage
import FleetWorkflow.Api.Middleware
import FleetWorkflow.Api.RateLimit
import FleetWorkflow.Api.RecipeOutcomes
import FleetWorkflow.Api.Recipes
import FleetWorkflow.Api.Replies
import FleetWorkflow.Api.Retries
import FleetWorkflow.Api.StartRuns
import FleetWorkflow.Api.Subjects
import FleetWorkflow.Api.Workflows
import FleetWorkflow.Approvals.AskedWrites
import FleetWorkflow.Approvals.Askers
import FleetWorkflow.Approvals.AtMostOnce
import FleetWorkflow.Approvals.Ledger
import FleetWorkflow.Approvals.Producers
import FleetWorkflow.Async.Crew
import FleetWorkflow.Async.Pool
import FleetWorkflow.Async.Prog
import FleetWorkflow.Async.Runs
import FleetWorkflow.Async.Simulation
import FleetWorkflow.Async.StateGraph
import FleetWorkflow.Async.Trace
import FleetWorkflow.Core.BaseGraph
import FleetWorkflow.Core.BaseSafety
import FleetWorkflow.Core.Call
import FleetWorkflow.Core.Delimiters
import FleetWorkflow.Core.Gates
import FleetWorkflow.Core.Guardrails
import FleetWorkflow.Core.Identifiers
import FleetWorkflow.Core.Logging
import FleetWorkflow.Core.Masking
import FleetWorkflow.Core.PiiScrub
import FleetWorkflow.Core.Quarantine
import FleetWorkflow.Core.ScrubForms
import FleetWorkflow.Core.ScrubGaps
import FleetWorkflow.Core.Scrubbing
import FleetWorkflow.Core.Turns
import FleetWorkflow.Flow.Fallible
import FleetWorkflow.Flow.Hyphenation
import FleetWorkflow.Flow.Pieces
import FleetWorkflow.Flow.Quota
import FleetWorkflow.Flow.Ranking
import FleetWorkflow.Flow.Wiring
import FleetWorkflow.Gateway.PricingSync
import FleetWorkflow.KillSwitch.PauseRecords
import FleetWorkflow.KillSwitch.PauseStaleness
import FleetWorkflow.Llm.Budget
import FleetWorkflow.Llm.BudgetDecision
import FleetWorkflow.Llm.Clearance
import FleetWorkflow.Llm.Client
import FleetWorkflow.Llm.Cost
import FleetWorkflow.Llm.EmbeddingOrder
import FleetWorkflow.Llm.Metering
import FleetWorkflow.Llm.Registry
import FleetWorkflow.Llm.Routing
import FleetWorkflow.Mcp.JsonSchema
import FleetWorkflow.Mcp.LegitimateReads
import FleetWorkflow.Mcp.PgReadOnly
import FleetWorkflow.Mcp.PoLookup
import FleetWorkflow.Mcp.RowLimit
import FleetWorkflow.Mcp.ToolSchema
import FleetWorkflow.N8n.Acknowledgements
import FleetWorkflow.N8n.Activation
import FleetWorkflow.N8n.Client
import FleetWorkflow.N8n.Deployment
import FleetWorkflow.N8n.Redeployment
import FleetWorkflow.Python.Binary64
import FleetWorkflow.Python.Bytes
import FleetWorkflow.Python.CaseFold
import FleetWorkflow.Python.Json
import FleetWorkflow.Python.JsonText
import FleetWorkflow.Python.Matches
import FleetWorkflow.Python.Normalization
import FleetWorkflow.Python.Numerals
import FleetWorkflow.Python.Paths
import FleetWorkflow.Python.Regex
import FleetWorkflow.Python.Replacement
import FleetWorkflow.Python.Separated
import FleetWorkflow.Python.Spans
import FleetWorkflow.Python.Takes
import FleetWorkflow.Python.Text
import FleetWorkflow.Python.Tracking
import FleetWorkflow.Python.Unambiguous
import FleetWorkflow.Python.Uuid5
import FleetWorkflow.Python.Value
import FleetWorkflow.Rag.Alignment
import FleetWorkflow.Rag.Calls
import FleetWorkflow.Rag.Chunk
import FleetWorkflow.Rag.ChunkMasking
import FleetWorkflow.Rag.Dedup
import FleetWorkflow.Rag.Deletion
import FleetWorkflow.Rag.Effects
import FleetWorkflow.Rag.Extract
import FleetWorkflow.Rag.Ingestion
import FleetWorkflow.Rag.Keeping
import FleetWorkflow.Rag.LocalOnly
import FleetWorkflow.Rag.Packing
import FleetWorkflow.Rag.Pii
import FleetWorkflow.Rag.Pipeline
import FleetWorkflow.Rag.Purge
import FleetWorkflow.Rag.Recognisers
import FleetWorkflow.Rag.Retrieval
import FleetWorkflow.Rag.Sources
import FleetWorkflow.Rag.Stores
import FleetWorkflow.Rag.Storing
import FleetWorkflow.Rag.Words
import FleetWorkflow.Recipes.Compiler
import FleetWorkflow.Recipes.Emission
import FleetWorkflow.Recipes.Operands
import FleetWorkflow.Recipes.Preservation
import FleetWorkflow.Recipes.Preview
import FleetWorkflow.Recipes.Reference
import FleetWorkflow.Recipes.Safety
import FleetWorkflow.Recipes.Schema
import FleetWorkflow.Recipes.Scoping
import FleetWorkflow.Recipes.Templates
import FleetWorkflow.Recipes.Tokens
import FleetWorkflow.Recipes.Validated
import FleetWorkflow.Semantic.Cache
import FleetWorkflow.Semantic.Freshness
import FleetWorkflow.Semantic.Isolation
import FleetWorkflow.Semantic.Scopes
import FleetWorkflow.Sql.LocalNames
import FleetWorkflow.Sql.Tree
import FleetWorkflow.Store.Counters
import FleetWorkflow.Store.KeyedRows
import FleetWorkflow.Store.Sessions
import FleetWorkflow.Store.Table
import FleetWorkflow.Store.World
import FleetWorkflow.Web.ChatStream
import FleetWorkflow.Web.DraftIds
import FleetWorkflow.Web.Expressions
import FleetWorkflow.Web.JsValue
import FleetWorkflow.Web.JsonCodec
import FleetWorkflow.Web.JsonNumbers
import FleetWorkflow.Web.JsonParse
import FleetWorkflow.Web.RecipeBuilder
import FleetWorkflow.Web.Slugs
import FleetWorkflow.Web.SpecialFloats
import FleetWorkflow.Web.SseCodec
import FleetWorkflow.Web.TextDecoder
