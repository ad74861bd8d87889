import PolyBot.Orchestrator.DiscoveryRuns
import PolyBot.Orchestrator.Handlers
import PolyBot.Websocket.CryptoIntervals

/-! From the environment to the bot: when it starts, what it is connected to, and when it sends orders to the
exchange. -/

namespace PolyBot.Bot.Startup
open DiscoveryRuns ExitControl MarketDiscovery MarketRefresh
open Handlers (Event)
open Handlers.State (step generated executed)

/-- The environment variables that are set, those of the `.env` file among them. -/
abbrev Environment := String → Option String

structure Credentials where
  apiKey : Option String
  secretKey : Option String
  passphrase : Option String
  privateKey : Option String
  walletAddress : Option String

inductive Failure where
  | Config (message : String)
  | Geoblocked (country region : String)
  | Authentication (message : String)
  | NoMarkets (message : String)
  | Panicked (message : String)

def trim (s : String) : String := .ofList ((s.toList.dropWhile isWhitespace).rdropWhile isWhitespace)

def isValid (val : Option String) : Bool :=
  match val with
  | some s => trim s ≠ "" ∧ trim s ≠ "0x" ∧ trim s ≠ "0x0" ∧ 4 < (trim s).utf8ByteSize
  | none => false

namespace Credentials

def fromEnv (env : Environment) : Credentials where
  apiKey := (env "POLYMARKET_API_KEY").or (env "api_key")
  secretKey := (env "POLYMARKET_SECRET").or (env "secret_key")
  passphrase := (env "POLYMARKET_PASSPHRASE").or (env "passphrase")
  privateKey := (env "PRIVATE_KEY").or (env "private_key")
  walletAddress := (env "WALLET_ADDRESS").or (env "builder_address")

/-- All five are set, be it to placeholders. -/
def complete (c : Credentials) : Bool :=
  c.apiKey.isSome && c.secretKey.isSome && c.passphrase.isSome && c.privateKey.isSome && c.walletAddress.isSome

def hasPrivateKey (c : Credentials) : Bool := isValid c.privateKey

def hasManualCreds (c : Credentials) : Bool := isValid c.apiKey && isValid c.secretKey && isValid c.passphrase

def hasCredentials (c : Credentials) : Bool := isValid c.walletAddress && (c.hasPrivateKey || c.hasManualCreds)

end Credentials

structure Account where
  portfolioUsdc : Option Decimal
  recentFills : List Fill

/-- What the bot asks and calls until it runs; a check of the region that fails tells nothing. -/
structure Services (σ ε F β : Type) where
  installCryptoProvider : Except String Unit
  installRecorder : Except String Unit
  newClobClient : Except String Unit
  newHttpClient : Except String Unit
  checkGeoblock : Option (Bool × String × String)
  authenticate : String → Except String Account
  discovery : DiscoveryServices σ ε F
  parseId : ConditionId → Option β
  parsesUuid : String → Bool
  parsesAddress : String → Bool

structure Settings where
  config : Config
  initialCashUsd : Decimal
  markets : MarketConfig

def operatingMode (env : Environment) : OperatingMode :=
  if env "BOT_MODE" = some "live" then .Live else .Paper

/-- Live mode requires all credentials to be set. -/
def fromEnv (settings : Settings) (env : Environment) : Except Failure (Config × Credentials) :=
  let c := Credentials.fromEnv env
  if operatingMode env = .Live ∧ c.complete = false then
    .error (.Config ("Live mode requires all credentials: POLYMARKET_API_KEY, POLYMARKET_SECRET, " ++
      "POLYMARKET_PASSPHRASE, PRIVATE_KEY, WALLET_ADDRESS"))
  else .ok ({ settings.config with mode := operatingMode env }, c)

structure Started (β : Type) where
  bot : Handlers.State
  feeds : Feeds β
  syncTask : Bool

section Launch
variable {σ ε F β : Type} (sv : Services σ ε F β) (settings : Settings)

def expect {α : Type} (message : String) (result : Except String α) : Except Failure α :=
  result.mapError fun e => .Panicked s!"{message}: {e}"

def passGeoblock : Except Failure Unit :=
  match sv.checkGeoblock with
  | some (true, country, region) => .error (.Geoblocked country region)
  | some (false, _, _) | none => .ok ()

/-- A bot that has a private key authenticates, in either mode. -/
def authenticated (c : Credentials) : Except Failure (Option Account) :=
  match c.privateKey with
  | some key => if c.hasPrivateKey then ((sv.authenticate key).map some).mapError .Authentication else .ok none
  | none => .ok none

def unwrap (val : Option String) : Except Failure String :=
  match val with
  | some s => .ok s
  | none => .error (.Panicked "called `Option::unwrap()` on a `None` value")

/-- The cash of the exchange, or of the configuration where it is not known, and the recent fills replayed. -/
def seeded (initialCashUsd : Decimal) (account : Account) : Ledger :=
  let ledger := Ledger.new initialCashUsd
  account.recentFills.foldl Ledger.processFill
    (match account.portfolioUsdc with
      | some balance => ledger.syncCash balance
      | none => ledger)

def resolveCredentials (c : Credentials) (auth : Option Account) : Except Failure (Ledger × Bool) :=
  if c.hasPrivateKey then
    match auth with
    | some account => .ok (seeded settings.initialCashUsd account, true)
    | none => .error (.Panicked "AuthComponents must be provided when PRIVATE_KEY is set")
  else do
    let apiKey ← unwrap c.apiKey
    if sv.parsesUuid apiKey = false then .error (.Panicked "POLYMARKET_API_KEY must be a valid UUID")
    else do
      let _ ← unwrap c.secretKey
      let _ ← unwrap c.passphrase
      .ok (Ledger.new settings.initialCashUsd, false)

def connect (c : Credentials) (auth : Option Account) : Except Failure (Ledger × Bool) :=
  if c.hasCredentials then do
    let connected ← resolveCredentials sv settings c auth
    let wallet ← unwrap c.walletAddress
    if sv.parsesAddress wallet then .ok connected
    else .error (.Panicked "WALLET_ADDRESS must be a valid Ethereum address")
  else .ok (Ledger.new settings.initialCashUsd, false)

def newBot (config : Config) (c : Credentials) (auth : Option Account) (feeds : Feeds β) :
    Except Failure (Started β) := do
  let (ledger, executor) ← connect sv settings c auth
  .ok ⟨{ Handlers.State.new config settings.initialCashUsd feeds.registry with
    ledger := ledger, hasExecutor := executor }, feeds, executor⟩

/-- The launch over what was discovered, which divides by the seconds of the interval. -/
def launched (config : Config) (c : Credentials) (now : ℕ) (x : σ) : Except Failure (State σ β) :=
  match launch sv.discovery sv.parseId settings.markets config.mode c.hasCredentials now x with
  | some result => result.mapError .NoMarkets
  | none => .error (.Panicked "attempt to divide by zero")

def main (env : Environment) (now : ℕ) (x : σ) : Except Failure (Started β) := do
  expect "Failed to install rustls crypto provider" sv.installCryptoProvider
  expect "failed to install Prometheus recorder" sv.installRecorder
  let (config, c) ← fromEnv settings env
  expect "Failed to create CLOB client" sv.newClobClient
  passGeoblock sv
  let auth ← authenticated sv c
  expect "Client::new()" sv.newHttpClient
  let s ← launched sv settings config c now x
  newBot sv settings config c auth s.feeds

structure Startable (env : Environment) (now : ℕ) (x : σ) : Prop where
  installed : sv.installCryptoProvider = .ok () ∧ sv.installRecorder = .ok () ∧ sv.newClobClient = .ok () ∧
    sv.newHttpClient = .ok ()
  complete : operatingMode env = .Live → (Credentials.fromEnv env).complete = true
  region : ∀ country region, sv.checkGeoblock ≠ some (true, country, region)
  authenticates : (Credentials.fromEnv env).hasPrivateKey = true →
    ∃ key account, (Credentials.fromEnv env).privateKey = some key ∧ sv.authenticate key = .ok account
  interval : settings.markets.marketIntervalSecs ≠ 0
  markets : operatingMode env = .Live → wanted sv.discovery settings.markets now x ≠ []
  uuid : (Credentials.fromEnv env).hasCredentials = true → (Credentials.fromEnv env).hasPrivateKey = false →
    ∃ apiKey, (Credentials.fromEnv env).apiKey = some apiKey ∧ sv.parsesUuid apiKey = true
  address : (Credentials.fromEnv env).hasCredentials = true →
    ∃ wallet, (Credentials.fromEnv env).walletAddress = some wallet ∧ sv.parsesAddress wallet = true

theorem exists_of_isValid {val : Option String} (h : isValid val = true) : ∃ s, val = some s := by
  cases val with
  | none => cases h
  | some s => exact ⟨s, rfl⟩

theorem bind_eq_ok_iff {α γ : Type} {e : Except Failure α} {f : α → Except Failure γ} {c : γ} :
    (e >>= f) = .ok c ↔ ∃ a, e = .ok a ∧ f a = .ok c := by
  cases e with
  | error failure => exact iff_of_false nofun fun ⟨_, h, _⟩ => by cases h
  | ok a => exact ⟨fun h => ⟨a, rfl, h⟩, fun ⟨_, ha, h⟩ => by cases ha; exact h⟩

variable {sv settings} {env : Environment} {now : ℕ} {x : σ} {c : Credentials}

theorem fromEnv_eq_ok_iff {config : Config} : fromEnv settings env = .ok (config, c) ↔
    (operatingMode env = .Live → (Credentials.fromEnv env).complete = true) ∧
      config = { settings.config with mode := operatingMode env } ∧ c = .fromEnv env := by
  unfold fromEnv
  dsimp only
  split
  · rename_i h
    exact iff_of_false nofun fun hall => by simp [hall.1 h.1] at h
  · rename_i h
    have hcomplete : operatingMode env = .Live → (Credentials.fromEnv env).complete = true := by
      simpa using h
    rw [Except.ok.injEq, Prod.mk.injEq]
    exact ⟨fun hall => ⟨hcomplete, hall.1.symm, hall.2.symm⟩, fun hall => ⟨hall.2.1.symm, hall.2.2.symm⟩⟩

theorem passGeoblock_eq_ok_iff {u : Unit} :
    passGeoblock sv = .ok u ↔ ∀ country region, sv.checkGeoblock ≠ some (true, country, region) := by
  unfold passGeoblock
  split
  · rename_i country region h
    exact iff_of_false nofun fun hpass => hpass country region h
  · rename_i h
    exact iff_of_true rfl (by simp [h])
  · rename_i h
    exact iff_of_true rfl (by simp [h])

/-- An account comes with every usable private key, and only with one. -/
theorem authenticated_eq_ok_iff {auth : Option Account} : authenticated sv c = .ok auth ↔
    if c.hasPrivateKey then ∃ key account, c.privateKey = some key ∧ sv.authenticate key = .ok account ∧
      auth = some account
    else auth = none := by
  unfold authenticated
  cases hkey : c.privateKey with
  | none =>
    have hnone : c.hasPrivateKey = false := by rw [Credentials.hasPrivateKey, hkey, isValid]
    simp [hnone, eq_comm]
  | some key =>
    cases hvalid : c.hasPrivateKey with
    | false => simp [eq_comm]
    | true => cases hauth : sv.authenticate key <;> simp [Except.map, Except.mapError, eq_comm, hauth]

theorem unwrap_eq_ok_iff {val : Option String} {t : String} : unwrap val = .ok t ↔ val = some t := by
  cases val <;> simp [unwrap]

/-- The account of a bot that has a private key is there, and so are the manual credentials of one that has none. -/
theorem resolveCredentials_eq_ok_iff (hcred : c.hasCredentials = true) {auth : Option Account}
    (hauth : authenticated sv c = .ok auth) {resolved : Ledger × Bool} :
    resolveCredentials sv settings c auth = .ok resolved ↔
      (c.hasPrivateKey = false → ∃ apiKey, c.apiKey = some apiKey ∧ sv.parsesUuid apiKey = true) ∧
        resolved = (auth.elim (.new settings.initialCashUsd) (seeded settings.initialCashUsd), c.hasPrivateKey) := by
  have hauth := authenticated_eq_ok_iff.mp hauth
  unfold resolveCredentials
  cases hkey : c.hasPrivateKey with
  | true =>
    rw [if_pos hkey] at hauth
    obtain ⟨key, account, -, -, rfl⟩ := hauth
    simp only [if_true, Except.ok.injEq, Bool.true_eq_false, false_implies, true_and, Option.elim_some]
    exact eq_comm
  | false =>
    rw [Credentials.hasCredentials, hkey, Bool.false_or, Bool.and_eq_true, Credentials.hasManualCreds,
      Bool.and_eq_true, Bool.and_eq_true] at hcred
    obtain ⟨-, ⟨hapi, hsecret⟩, hpass⟩ := hcred
    obtain ⟨apiKey, hapi⟩ := exists_of_isValid hapi
    obtain ⟨secretKey, hsecret⟩ := exists_of_isValid hsecret
    obtain ⟨passphrase, hpass⟩ := exists_of_isValid hpass
    rw [if_neg (by simp [hkey])] at hauth
    rw [hauth, hapi, hsecret, hpass]
    simp only [Bool.false_eq_true, if_false, bind_eq_ok_iff, unwrap_eq_ok_iff, Option.some.injEq, exists_eq_left',
      forall_const, Option.elim_none]
    cases huuid : sv.parsesUuid apiKey with
    | false => simp
    | true =>
      simp only [Bool.true_eq_false, if_false, bind_eq_ok_iff, unwrap_eq_ok_iff, Option.some.injEq, exists_eq_left',
        Except.ok.injEq, true_and]
      exact eq_comm

theorem connect_eq_ok_iff {auth : Option Account} (hauth : authenticated sv c = .ok auth) {connected : Ledger × Bool} :
    connect sv settings c auth = .ok connected ↔
      (c.hasCredentials = true → c.hasPrivateKey = false →
        ∃ apiKey, c.apiKey = some apiKey ∧ sv.parsesUuid apiKey = true) ∧
      (c.hasCredentials = true → ∃ wallet, c.walletAddress = some wallet ∧ sv.parsesAddress wallet = true) ∧
      connected = if c.hasCredentials then
        (auth.elim (.new settings.initialCashUsd) (seeded settings.initialCashUsd), c.hasPrivateKey)
      else (.new settings.initialCashUsd, false) := by
  unfold connect
  cases hcred : c.hasCredentials with
  | false =>
    simp only [Bool.false_eq_true, if_false, Except.ok.injEq, false_implies, true_and]
    exact eq_comm
  | true =>
    have hwallet := hcred
    rw [Credentials.hasCredentials, Bool.and_eq_true] at hwallet
    obtain ⟨wallet, hwallet⟩ := exists_of_isValid hwallet.1
    simp only [if_true, bind_eq_ok_iff, resolveCredentials_eq_ok_iff hcred hauth, unwrap_eq_ok_iff, hwallet,
      Option.some.injEq, exists_eq_left', forall_const]
    cases haddress : sv.parsesAddress wallet with
    | false => simp
    | true =>
      simp only [if_true, Except.ok.injEq, true_and, exists_eq_right]

theorem mapError_eq_ok_iff {α ε' : Type} {e : Except ε' α} {f : ε' → Failure} {a : α} :
    e.mapError f = .ok a ↔ e = .ok a := by
  cases e <;> simp [Except.mapError]

theorem expect_eq_ok_iff {message : String} {result : Except String Unit} {u : Unit} :
    expect message result = .ok u ↔ result = .ok () :=
  mapError_eq_ok_iff

theorem exists_launched_iff {config : Config} : (∃ s, launched sv settings config c now x = .ok s) ↔
    settings.markets.marketIntervalSecs ≠ 0 ∧
      (config.mode = .Live → wanted sv.discovery settings.markets now x ≠ []) := by
  obtain ⟨world, hlaunch⟩ := exactly_launch sv.discovery sv.parseId settings.markets config.mode c.hasCredentials now x
  unfold launched
  by_cases hsecs : settings.markets.marketIntervalSecs = 0
  · rw [hlaunch.stops (not_not.mpr hsecs)]
    exact iff_of_false nofun fun h => h.1 hsecs
  · rw [hlaunch.through hsecs, and_iff_right hsecs]
    simp only [mapError_eq_ok_iff]
    unfold marketsToTrade
    split
    · rename_i hsome
      exact iff_of_true ⟨_, rfl⟩ fun _ => hsome
    · rename_i hnone
      cases config.mode with
      | Live => exact iff_of_false (fun ⟨_, h⟩ => by cases h) fun h => hnone (h rfl)
      | Paper => exact iff_of_true ⟨_, rfl⟩ fun h => by cases h

theorem main_eq_ok_iff {b : Started β} : main sv settings env now x = .ok b ↔
    (sv.installCryptoProvider = .ok () ∧ sv.installRecorder = .ok () ∧ sv.newClobClient = .ok () ∧
      sv.newHttpClient = .ok ()) ∧
    ∃ auth s connected, (operatingMode env = .Live → (Credentials.fromEnv env).complete = true) ∧
      passGeoblock sv = .ok () ∧ authenticated sv (.fromEnv env) = .ok auth ∧
      launched sv settings { settings.config with mode := operatingMode env } (.fromEnv env) now x = .ok s ∧
      connect sv settings (.fromEnv env) auth = .ok connected ∧
      b = ⟨{ Handlers.State.new { settings.config with mode := operatingMode env } settings.initialCashUsd
          s.feeds.registry with ledger := connected.1, hasExecutor := connected.2 }, s.feeds, connected.2⟩ := by
  simp only [main, newBot, bind_eq_ok_iff, expect_eq_ok_iff, Prod.exists, fromEnv_eq_ok_iff]
  constructor
  · rintro ⟨⟨⟩, hprovider, ⟨⟩, hrecorder, _, _, ⟨hcomplete, rfl, rfl⟩, ⟨⟩, hclient, ⟨⟩, hpass, auth, hauth, ⟨⟩, hhttp, s,
      hlaunch, ledger, executor, hconnect, hb⟩
    exact ⟨⟨hprovider, hrecorder, hclient, hhttp⟩, auth, s, ledger, executor, hcomplete, hpass, hauth, hlaunch, hconnect,
      (Except.ok.inj hb).symm⟩
  · rintro ⟨⟨hprovider, hrecorder, hclient, hhttp⟩, auth, s, ledger, executor, hcomplete, hpass, hauth, hlaunch, hconnect,
      rfl⟩
    exact ⟨(), hprovider, (), hrecorder, _, _, ⟨hcomplete, rfl, rfl⟩, (), hclient, (), hpass, auth, hauth, (), hhttp, s,
      hlaunch, ledger, executor, hconnect, rfl⟩

/-- When the bot starts. Its own panics are those for an interval of no seconds, an API key that is no UUID and an
address that is none. -/
theorem starts_iff : (∃ b, main sv settings env now x = .ok b) ↔ Startable sv settings env now x := by
  simp only [main_eq_ok_iff]
  constructor
  · rintro ⟨b, hinstalled, auth, s, connected, hcomplete, hpass, hauth, hlaunch, hconnect, rfl⟩
    obtain ⟨huuid, haddress, -⟩ := (connect_eq_ok_iff hauth).mp hconnect
    obtain ⟨hinterval, hmarkets⟩ := exists_launched_iff.mp ⟨s, hlaunch⟩
    refine ⟨hinstalled, hcomplete, passGeoblock_eq_ok_iff.mp hpass, fun hkey => ?_, hinterval, hmarkets, huuid, haddress⟩
    have haccount := authenticated_eq_ok_iff.mp hauth
    rw [if_pos hkey] at haccount
    obtain ⟨key, account, hkey, haccount, -⟩ := haccount
    exact ⟨key, account, hkey, haccount⟩
  · rintro ⟨hinstalled, hcomplete, hregion, hauthenticates, hinterval, hmarkets, huuid, haddress⟩
    obtain ⟨auth, hauth⟩ : ∃ auth, authenticated sv (.fromEnv env) = .ok auth := by
      by_cases hkey : (Credentials.fromEnv env).hasPrivateKey = true
      · obtain ⟨key, account, hkey', haccount⟩ := hauthenticates hkey
        exact ⟨_, authenticated_eq_ok_iff.mpr (by rw [if_pos hkey]; exact ⟨key, account, hkey', haccount, rfl⟩)⟩
      · exact ⟨_, authenticated_eq_ok_iff.mpr (by rw [if_neg hkey])⟩
    have hlaunched : ∃ s, launched sv settings { settings.config with mode := operatingMode env } (.fromEnv env) now x =
        .ok s := exists_launched_iff.mpr ⟨hinterval, hmarkets⟩
    obtain ⟨s, hlaunch⟩ := hlaunched
    exact ⟨_, hinstalled, auth, s, _, hcomplete, passGeoblock_eq_ok_iff.mpr hregion, hauth, hlaunch,
      (connect_eq_ok_iff hauth).mpr ⟨huuid, haddress, rfl⟩, rfl⟩

/-- The bot runs in the mode that it was started in, and with an executor exactly if its key and its wallet are usable,
also on paper. -/
theorem started {b : Started β} (h : main sv settings env now x = .ok b) :
    b.bot.config.mode = operatingMode env ∧
      b.bot.hasExecutor = ((Credentials.fromEnv env).hasCredentials && (Credentials.fromEnv env).hasPrivateKey) ∧
      b.syncTask = b.bot.hasExecutor := by
  obtain ⟨-, auth, s, connected, -, -, hauth, -, hconnect, rfl⟩ := main_eq_ok_iff.mp h
  obtain ⟨-, -, rfl⟩ := (connect_eq_ok_iff hauth).mp hconnect
  refine ⟨rfl, ?_, rfl⟩
  cases (Credentials.fromEnv env).hasCredentials <;> rfl

end Launch

section Runs
variable {F : Type} (parse : String → Option Decimal) (assetSymbol : MarketPair → Option String)
  (tryFrom : F → Option Decimal) (s : Handlers.State)

def submitted (event : Event F) : List OrderIntent :=
  match s.config.mode with
  | .Live => s.executed parse assetSymbol tryFrom event
  | .Paper => []

theorem processIntents_fixed (intents : List OrderIntent) (now : Instant) :
    (s.processIntents parse intents now).2.config = s.config ∧
      (s.processIntents parse intents now).2.hasExecutor = s.hasExecutor := by
  unfold Handlers.State.processIntents
  dsimp only
  split
  · exact ⟨rfl, rfl⟩
  · split <;> exact ⟨rfl, rfl⟩

theorem handle_fixed (event : Event F) :
    (s.handle parse assetSymbol tryFrom event).2.config = s.config ∧
      (s.handle parse assetSymbol tryFrom event).2.hasExecutor = s.hasExecutor := by
  cases event with
  | marketMessage msg moment =>
    cases msg with
    | Connected | Reconnecting => exact ⟨rfl, rfl⟩
    | Book msg =>
      rw [Handlers.State.handle, Handlers.State.handleMarketMessage]
      dsimp only
      unfold Handlers.State.routeBookUpdate
      split <;> exact ⟨rfl, rfl⟩
  | userMessage msg =>
    cases msg with
    | Connected | Reconnecting | OrderUpdate orderId status => exact ⟨rfl, rfl⟩
    | Trade trade =>
      rw [Handlers.State.handle, Handlers.State.handleUserMessage]
      dsimp only
      split <;> exact ⟨rfl, rfl⟩
  | _ => exact ⟨rfl, rfl⟩

/-- No event changes the mode or the executor. -/
theorem step_fixed (event : Event F) :
    (s.step parse assetSymbol tryFrom event).config = s.config ∧
      (s.step parse assetSymbol tryFrom event).hasExecutor = s.hasExecutor := by
  have hhandle := handle_fixed parse assetSymbol tryFrom s event
  unfold Handlers.State.step Handlers.State.outcome
  split
  · rename_i heq
    rwa [heq] at hhandle
  · rename_i i intents s' heq
    rw [heq] at hhandle
    have hprocess := processIntents_fixed parse s' (i :: intents) event.now
    exact ⟨hprocess.1.trans hhandle.1, hprocess.2.trans hhandle.2⟩

theorem run_fixed (events : List (Event F)) :
    (events.foldl (step parse assetSymbol tryFrom) s).config = s.config ∧
      (events.foldl (step parse assetSymbol tryFrom) s).hasExecutor = s.hasExecutor := by
  induction events generalizing s with
  | nil => exact ⟨rfl, rfl⟩
  | cons event events ih =>
    have hstep := step_fixed parse assetSymbol tryFrom s event
    have hrest := ih (s.step parse assetSymbol tryFrom event)
    exact ⟨hrest.1.trans hstep.1, hrest.2.trans hstep.2⟩

theorem mem_submitted_iff {i : OrderIntent} {event : Event F} :
    i ∈ submitted parse assetSymbol tryFrom s event ↔ s.config.mode = .Live ∧ s.hasExecutor = true ∧
      i ∈ s.generated parse assetSymbol tryFrom event ∧
      (s.circuitBreaker.isTradingAllowed event.now).1 = true := by
  unfold submitted
  cases hmode : s.config.mode with
  | Paper => simp
  | Live =>
    rw [Handlers.State.mem_executed_iff, Handlers.State.Admits, hmode]
    simp
    tauto

end Runs

variable {σ ε F β : Type} {sv : Services σ ε F β} {settings : Settings} {env : Environment} {now : ℕ} {x : σ}

theorem live_and_executor_iff {b : Started β} (h : main sv settings env now x = .ok b) :
    b.bot.config.mode = .Live ∧ b.bot.hasExecutor = true ↔
      env "BOT_MODE" = some "live" ∧ isValid (Credentials.fromEnv env).privateKey = true ∧
        isValid (Credentials.fromEnv env).walletAddress = true := by
  obtain ⟨hmode, hexecutor, -⟩ := started h
  have hlive : operatingMode env = .Live ↔ env "BOT_MODE" = some "live" := by
    unfold operatingMode
    split <;> simp_all
  rw [hmode, hexecutor, hlive, Bool.and_eq_true, Credentials.hasCredentials, Bool.and_eq_true, Bool.or_eq_true,
    Credentials.hasPrivateKey]
  tauto

private def paperEnv : Environment := fun name =>
  if name = "PRIVATE_KEY" then some "0x59c6995e998f97a5a0044966f0945389"
  else if name = "WALLET_ADDRESS" then some "0x70997970C51812dc3A010C7d01b50e0d17dc79C8"
  else none

private def accountServices : Services Unit String Decimal ConditionId where
  installCryptoProvider := .ok ()
  installRecorder := .ok ()
  newClobClient := .ok ()
  newHttpClient := .ok ()
  checkGeoblock := none
  authenticate := fun _ => .ok ⟨some 250, []⟩
  discovery := ⟨⟨fun _ _ => (.error "503 Service Unavailable", ())⟩, fun _ => .error "EOF", some, String.toLower⟩
  parseId := some
  parsesUuid := fun _ => false
  parsesAddress := fun wallet => wallet = "0x70997970C51812dc3A010C7d01b50e0d17dc79C8"

private def paperSettings : Settings := ⟨.default, 2000, ⟨["btc"], "15m", 900, 5⟩⟩

end PolyBot.Bot.Startup
