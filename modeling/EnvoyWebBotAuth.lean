import EnvoyWebBotAuth.Contract.Deployment
import EnvoyWebBotAuth.Gateway.Coverage
import EnvoyWebBotAuth.Gateway.Freshness
import EnvoyWebBotAuth.Gateway.Legacy
import EnvoyWebBotAuth.Gateway.Modes
import EnvoyWebBotAuth.Gateway.Target
import EnvoyWebBotAuth.Protocol.DotSegments
import EnvoyWebBotAuth.Resolver.Admission
import EnvoyWebBotAuth.Resolver.Deadline
import EnvoyWebBotAuth.Resolver.Embedding
import EnvoyWebBotAuth.Resolver.Headers
import EnvoyWebBotAuth.Resolver.Lockout
import EnvoyWebBotAuth.Resolver.Rates
import EnvoyWebBotAuth.Resolver.Revalidate
import EnvoyWebBotAuth.Resolver.Staleness
import EnvoyWebBotAuth.Resolver.Startup
