import PriceDesk.Time.Duration

namespace PriceDesk

inductive MarketError where
  | pairNotSupported (pair : String)
  | noProvidersAvailable
  | noProviderForNetwork (network capability : String)
  | providerResponse (provider method message : String)
  | timeout (provider method : String) (elapsed : Duration)
  | transport (provider message : String)
  | rateLimited (provider : String)
  | invalidPair (text : String)
  | invalidPrice (pair message : String)
  | configuration (text : String)
  | allProvidersFailed
deriving DecidableEq, Repr

inductive RetryClass where
  | never
  | failoverWithPenalty
  | nextProvider
deriving DecidableEq, Repr

namespace MarketError

def message : MarketError → String
  | pairNotSupported pair => s!"Asset pair not supported: {pair}"
  | noProvidersAvailable => "No providers available"
  | noProviderForNetwork network capability =>
    s!"No {capability} provider for network: {network}"
  | providerResponse provider method message =>
    s!"Provider error: {provider} ({method}) - {message}"
  | timeout provider method elapsed =>
    s!"Timeout: {provider} ({method}) after " ++ elapsed.render
  | transport provider message => s!"Transport error: {provider} - {message}"
  | rateLimited provider => s!"Rate limited: {provider}"
  | invalidPair text => s!"Invalid asset pair: {text}"
  | invalidPrice pair message => s!"Invalid price for {pair}: {message}"
  | configuration text => s!"Configuration error: {text}"
  | allProvidersFailed => "All providers failed"

instance : ToString MarketError := ⟨message⟩

def retryClass : MarketError → RetryClass
  | pairNotSupported _ | noProvidersAvailable | invalidPair _ | configuration _
  | allProvidersFailed => .never
  | timeout .. | transport .. | rateLimited _ => .failoverWithPenalty
  | noProviderForNetwork .. | providerResponse .. | invalidPrice .. => .nextProvider

def isFinal (e : MarketError) : Bool := e.retryClass == .never

end MarketError

end PriceDesk
