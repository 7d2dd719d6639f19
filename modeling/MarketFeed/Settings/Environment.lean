import MarketFeed.Settings.File
import MarketFeed.Text.Characters
import MarketFeed.Text.Utf8

/-!
Settings from the environment. Two variables replace addresses. Two more list pairs and channels,
separated by commas; if either is there, the subscription becomes every channel with every pair, and
what is not listed is taken from the subscription before.
-/
namespace MarketFeed.Settings

/-- The value of a variable, if it is there. -/
abbrev Environment := String → Option String

/-- The parts of a text between commas. -/
def commaParts : List Char → List (List Char)
  | [] => [[]]
  | c :: rest =>
    if c = ',' then [] :: commaParts rest
    else
      match commaParts rest with
      | part :: parts => (c :: part) :: parts
      | [] => [[c]]

/-- The items of a list with commas, without the blanks around them and without empty ones. -/
def listed (s : String) : List String :=
  (((commaParts s.toList).map Text.Blank.trim).filter (· ≠ [])).map String.ofList

/-- Every one of some channels with every one of some symbols. -/
def product (channels : List Feed.Channel) (symbols : List String) : Feed.Subscription :=
  channels.foldl (fun s c => s.addAll c symbols) {}

/-- The channels of a subscription that have a symbol. -/
def usedChannels (s : Feed.Subscription) : List Feed.Channel :=
  Feed.Channel.all.filter fun c => !(s.symbols c).isEmpty

/-- The addresses of the environment in place of those of the settings. -/
def withAddresses (s : Settings) (env : Environment) : Settings :=
  { s with
    streaming := { s.streaming with url := (env "HITBTC_WS_URL").getD s.streaming.url }
    rest := { s.rest with symbolsUrl := (env "HITBTC_SYMBOLS_URL").getD s.rest.symbolsUrl } }

/-- The channels that the environment lists, if it does. -/
def envChannels (env : Environment) : Except Feed.Error (Option (List Feed.Channel)) :=
  match env "HITBTC_CHANNELS" with
  | none => .ok none
  | some text => ((listed text).mapM Feed.Channel.ofText).map some

/-- Settings with what the environment says. Addresses are replaced before the list of channels is
read, which may fail. -/
def withEnvironment (s : Settings) (env : Environment) : Settings × Except Feed.Error Unit :=
  let s := s.withAddresses env
  match envChannels env with
  | .error e => (s, .error e)
  | .ok channels =>
    let pairs := (env "HITBTC_PAIRS").map listed
    if pairs.isNone ∧ channels.isNone then (s, .ok ())
    else
      let symbols := pairs.getD s.subscription.allSymbols
      let channels := channels.getD (usedChannels s.subscription)
      ({ s with subscription := product channels symbols }, .ok ())

/-- The settings of a file, if it can be read, with what the environment says. -/
def load (file : Option (List UInt8)) (env : Environment) : Except Feed.Error Settings :=
  match file.bind Text.Utf8.decode? with
  | none => .error (.configuration "Failed to read config file")
  | some text => do
    let (s, applied) := (← ofText (String.ofList text)).withEnvironment env
    applied.map fun _ => s

end MarketFeed.Settings
