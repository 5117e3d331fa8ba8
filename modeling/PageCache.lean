import PageCache.Cdn
import PageCache.Files.Tree
import PageCache.Main
import PageCache.Policy.Json
import PageCache.Proofs.Pattern.Matches
import PageCache.Proofs.Pattern.Search
import PageCache.Proofs.Pattern.Fixed
import PageCache.Proofs.Pattern.Threads
import PageCache.Proofs.Pattern.Plain
import PageCache.Proofs.Path.Slashes
import PageCache.Proofs.Path.Template
import PageCache.Proofs.Path.Root
import PageCache.Proofs.Text.Lines
import PageCache.Proofs.Tenant.Addressed
import PageCache.Proofs.Tenant.Host
import PageCache.Proofs.Config.Trimmed
import PageCache.Proofs.Config.Groups
import PageCache.Proofs.Config.WellFormed
import PageCache.Proofs.Config.Server
import PageCache.Proofs.Decision.Verdict
import PageCache.Proofs.Decision.Separation
import PageCache.Proofs.Decision.Exclusion
import PageCache.Proofs.Decision.Isolation
import PageCache.Proofs.Decision.Vary
import PageCache.Proofs.Decision.Substitution
import PageCache.Proofs.Decision.Referrer
import PageCache.Proofs.Decision.Order
import PageCache.Proofs.Nginx.Simulation
import PageCache.Proofs.Nginx.Locations
import PageCache.Proofs.Apache.Simulation
import PageCache.Proofs.Region.Pairs
import PageCache.Proofs.Region.Order
import PageCache.Proofs.Region.Restored
import PageCache.Proofs.Region.Foreign
import PageCache.Proofs.Region.Excision
import PageCache.Proofs.Region.Offsets
import PageCache.Proofs.RuleFile.Rewrite
import PageCache.Proofs.RuleFile.Runs
import PageCache.Proofs.RuleFile.Single
import PageCache.Proofs.RuleFile.Checks
import PageCache.Proofs.RuleFile.Frame
import PageCache.Proofs.Rules.Arguments
import PageCache.Proofs.Rules.Markers
import PageCache.Proofs.Rules.Headers
import PageCache.Proofs.Rules.Compression
import PageCache.Proofs.Cdn.Siblings
import PageCache.Proofs.Policy.Serialized
