import ArmstrongBot.Api.Cookies
import ArmstrongBot.Library.Base64Url
import ArmstrongBot.Library.Calendar
import ArmstrongBot.Library.CookieJar
import ArmstrongBot.Library.StepMachine
import Mathlib.Logic.Function.Basic

/-! The login over Discord: `login` and `callback` of the API and of the dashboard, between browsers
that hold cookies and that anyone may lead to the callback. -/

namespace OAuthLogin

open JsText Cookies StepMachine
open Calendar (Timestamp)
open CookieJar (Jar Cookie header)
open UriDecoding (decodeURIComponent encodeURIComponent Plain)

/-- What the two controllers differ in: the cookies they set, how they read one back, and which
values of other cookies the reader can bear. -/
structure Flow where
  stateCookie : CookieJar.Name
  sessionCookie : CookieJar.Name
  apart : sessionCookie ≠ stateCookie
  strict : Bool
  ttlSeconds : Nat
  read : JsString → JsString → Answer
  bears : JsString → Bool
  bears_plain : ∀ value, Plain value → bears value = true
  reads : ∀ header, (∀ entry ∈ entries header, bears entry.2 = true) →
    (∀ value ∈ named header stateCookie.text, (decodeURIComponent value).isSome = true) →
    (named header stateCookie.text).length ≤ 1 →
    read header stateCookie.text =
      .of ((named header stateCookie.text).head?.bind decodeURIComponent)

def apiStateCookie : CookieJar.Name :=
  { text := js "gb_oauth_state", apart := by decide +kernel, trimmed := by decide +kernel }

def dashboardStateCookie : CookieJar.Name :=
  { text := js "ghost_dash_state", apart := by decide +kernel, trimmed := by decide +kernel }

theorem firstCookie_reads {header name : JsString}
    (decodes : ∀ value ∈ named header name, (decodeURIComponent value).isSome = true) :
    firstCookie header name = .of ((named header name).head?.bind decodeURIComponent) := by
  rw [firstCookie_eq]
  cases values : named header name with
  | nil => rfl
  | cons value rest =>
      rw [values] at decodes
      obtain ⟨decoded, decode⟩ := Option.isSome_iff_exists.mp (decodes value List.mem_cons_self)
      simp [decode, Answer.of]

theorem apiCookie_reads {header name : JsString} (decodes : Decodes (entries header))
    (ordinary : name ≠ [] ∧ name ∉ inheritedNames) (single : (named header name).length ≤ 1) :
    apiCookie header name = .of ((named header name).head?.bind decodeURIComponent) := by
  have notProto : name ≠ protoName := by
    rintro rfl
    exact ordinary.2 (by decide +kernel)
  rw [apiCookie_eq decodes, if_neg (not_or.mpr ⟨ordinary.1, notProto⟩), if_neg ordinary.2]
  match values : named header name, single with
  | [], _ => rfl
  | [value], _ => cases decode : decodeURIComponent value <;> simp [decode, Answer.of]

/-- The API sets lax cookies, and `parseCookies` reads all cookies for one. -/
def apiFlow (sessionCookie : CookieJar.Name) (apart : sessionCookie ≠ apiStateCookie)
    (ttlSeconds : Nat) : Flow :=
  { stateCookie := apiStateCookie, sessionCookie, apart, strict := false, ttlSeconds
    read := apiCookie
    bears := fun value => (decodeURIComponent value).isSome
    bears_plain := fun value plain => by rw [UriDecoding.decodeURIComponent_plain plain]; rfl
    reads := fun header bears _ single =>
      apiCookie_reads (fun entry member _ => bears entry member) (by decide +kernel) single }

def dashboardFlow (sessionCookie : CookieJar.Name) (apart : sessionCookie ≠ dashboardStateCookie)
    (strict : Bool) (ttlSeconds : Nat) : Flow :=
  { stateCookie := dashboardStateCookie, sessionCookie, apart, strict, ttlSeconds
    read := firstCookie
    bears := fun _ => true
    bears_plain := fun _ _ => rfl
    reads := fun _ _ decodes _ => firstCookie_reads decodes }

inductive Verdict
  | failed
  | unauthorized
  | exchanging (state : JsString)
  deriving DecidableEq

/-- A callback that was let through, with the state and the time at which it was. -/
structure Call where
  browser : Nat
  state : JsString
  at_ : Timestamp
  ended : Bool

structure SessionLog where
  browser : Nat
  state : JsString
  calledAt : Timestamp
  sessionId : JsString

structure LoginLog where
  browser : Nat
  state : JsString
  at_ : Timestamp

/-- What is seen of the logins from outside. -/
structure History where
  now : Timestamp
  logins : List LoginLog
  calls : List Call
  verdicts : List Verdict
  sessions : List SessionLog

def History.start : History := { now := 0, logins := [], calls := [], verdicts := [], sessions := [] }

structure World where
  jars : Nat → Jar
  history : History

def World.start : World := { jars := fun _ => JsMap.empty, history := .start }

inductive Action
  | wait (milliseconds : Nat)
  | login (browser : Nat) (drawn : List UInt8)
  | setOther (browser : Nat) (name : CookieJar.Name) (cookie : Cookie)
  | forget (browser : Nat) (name : CookieJar.Name)
  | callback (browser : Nat) (crossSite : Bool) (code state : Option JsString)
  | complete (call : Nat) (sessionId : Option JsString)

def stateBytes : Nat := 16

/-- Five minutes, in milliseconds. -/
def stateMaxAge : Int := 5 * 60 * 1000

namespace History

variable (history : History)

def loggedIn (browser : Nat) (state : JsString) : History :=
  { history with logins := history.logins ++ [{ browser, state, at_ := history.now }] }

def called (browser : Nat) (verdict : Verdict) : History :=
  { history with
    verdicts := history.verdicts ++ [verdict]
    calls := history.calls ++ match verdict with
      | .exchanging state => [{ browser, state, at_ := history.now, ended := false }]
      | _ => [] }

def ended (index : Nat) (call : Call) (sessionId : Option JsString) : History :=
  { history with
    calls := history.calls.set index { call with ended := true }
    sessions := history.sessions ++ (sessionId.map fun sessionId =>
      { browser := call.browser, state := call.state, calledAt := call.at_, sessionId }).toList }

end History

namespace Flow

variable (flow : Flow)

/-- `callback` up to the exchange of the code. What an object inherits is never the state. -/
def callback (header : JsString) (code state : Option JsString) : Verdict :=
  match flow.read header flow.stateCookie.text with
  | .throws => .failed
  | .text expected =>
      if code.getD [] = [] ∨ state.getD [] = [] ∨ expected = [] ∨ state ≠ some expected then
        .unauthorized
      else .exchanging expected
  | .nothing | .inherited => .unauthorized

def cookie (value : JsString) (now : Timestamp) (maxAge : Int) : Option Cookie :=
  (encodeURIComponent value).bind fun value => Cookie.of value (some (now + maxAge)) flow.strict

/-- The browser keeps its cookies as it is told. A session id is a text of which nothing is
escaped. -/
def step (world : World) : Action → Option World
  | .wait milliseconds =>
      some { world with history := { world.history with now := world.history.now + milliseconds } }
  | .login browser drawn =>
      if drawn.length = stateBytes then
        let state := Base64Url.encode drawn
        (flow.cookie state world.history.now stateMaxAge).map fun cookie =>
          { jars := Function.update world.jars browser
              ((world.jars browser).set flow.stateCookie cookie)
            history := world.history.loggedIn browser state }
      else none
  | .setOther browser name cookie =>
      if name ≠ flow.stateCookie ∧ flow.bears cookie.value = true then
        some { world with
          jars := Function.update world.jars browser ((world.jars browser).set name cookie) }
      else none
  | .forget browser name =>
      some { world with
        jars := Function.update world.jars browser ((world.jars browser).delete name) }
  | .callback browser crossSite code state =>
      let sent := header (world.jars browser) world.history.now crossSite
      some { world with history := world.history.called browser (flow.callback sent code state) }
  | .complete index sessionId =>
      match world.history.calls[index]? with
      | some call =>
          if call.ended then none
          else
            match sessionId with
            | none => some { world with history := world.history.ended index call none }
            | some id =>
                if Plain id then
                  (flow.cookie id world.history.now (flow.ttlSeconds * 1000)).map fun cookie =>
                    { jars := Function.update world.jars call.browser
                        (((world.jars call.browser).delete flow.stateCookie).set
                          flow.sessionCookie cookie)
                      history := world.history.ended index call (some id) }
                else none
      | none => none

end Flow

/-! What the logins are for: a browser awaits the state of its last login, until it is too old, a
login of the browser completes, or the browser forgets. -/

structure Awaiting where
  state : JsString
  expiresAt : Timestamp

structure Spec where
  awaiting : Nat → Option Awaiting
  history : History

def Spec.start : Spec := { awaiting := fun _ => none, history := .start }

namespace Flow

variable (flow : Flow)

/-- A strict cookie is of no use to a callback that comes from Discord. -/
def verdict (awaiting : Option Awaiting) (now : Timestamp) (crossSite : Bool)
    (code state : Option JsString) : Verdict :=
  match awaiting with
  | some { state := expected, expiresAt } =>
      if now < expiresAt ∧ ¬ (crossSite = true ∧ flow.strict = true) ∧ code.getD [] ≠ [] ∧
          state = some expected then .exchanging expected
      else .unauthorized
  | none => .unauthorized

def specStep (spec : Spec) : Action → Option Spec
  | .wait milliseconds =>
      some { spec with history := { spec.history with now := spec.history.now + milliseconds } }
  | .login browser drawn =>
      if drawn.length = stateBytes then
        let state := Base64Url.encode drawn
        some
          { awaiting := Function.update spec.awaiting browser
              (some { state, expiresAt := spec.history.now + stateMaxAge })
            history := spec.history.loggedIn browser state }
      else none
  | .setOther _ name cookie =>
      if name ≠ flow.stateCookie ∧ flow.bears cookie.value = true then some spec else none
  | .forget browser name =>
      if name = flow.stateCookie then
        some { spec with awaiting := Function.update spec.awaiting browser none }
      else some spec
  | .callback browser crossSite code state =>
      let verdict := flow.verdict (spec.awaiting browser) spec.history.now crossSite code state
      some { spec with history := spec.history.called browser verdict }
  | .complete index sessionId =>
      match spec.history.calls[index]? with
      | some call =>
          if call.ended then none
          else
            match sessionId with
            | none => some { spec with history := spec.history.ended index call none }
            | some id =>
                if Plain id then
                  some
                    { awaiting := Function.update spec.awaiting call.browser none
                      history := spec.history.ended index call (some id) }
                else none
      | none => none

end Flow

/-! Reading back what a browser sends. -/

theorem entryOf_pair (entry : CookieJar.Name × Cookie) :
    entryOf (CookieJar.pair entry) = some (entry.1.text, entry.2.value) ∧
      entryOf (unit 32 :: CookieJar.pair entry) = some (entry.1.text, entry.2.value) := by
  have isName : ∀ code ∈ entry.1.text, decide (code ≠ unit 61) = true := by
    intro code member
    refine decide_eq_true ?_
    rintro rfl
    exact entry.1.apart.2 member
  have taken : (CookieJar.pair entry).takeWhile (· ≠ unit 61) = entry.1.text := by
    rw [CookieJar.pair, List.takeWhile_append_of_pos isName, List.takeWhile_cons_of_neg (by simp),
      List.append_nil]
  have dropped : ((CookieJar.pair entry).dropWhile (· ≠ unit 61)).drop 1 = entry.2.value := by
    rw [CookieJar.pair, List.dropWhile_append_of_pos isName, List.dropWhile_cons_of_neg (by simp)]
    rfl
  have hasSign : unit 61 ∈ CookieJar.pair entry :=
    List.mem_append_right _ List.mem_cons_self
  have notSign : decide (unit 32 ≠ unit 61) = true := by decide
  constructor
  · rw [entryOf, if_pos (List.contains_iff_mem.mpr hasSign), taken, dropped, entry.1.trimmed,
      entry.2.trimmed]
  · rw [entryOf, if_pos (List.contains_iff_mem.mpr (List.mem_cons_of_mem _ hasSign)),
      List.takeWhile_cons, if_pos notSign, List.dropWhile_cons, if_pos notSign, taken, dropped,
      CookieJar.trim_space, entry.1.trimmed, entry.2.trimmed]

theorem entries_header (jar : Jar) (now : Timestamp) (crossSite : Bool) :
    entries (header jar now crossSite) =
      (CookieJar.sent jar now crossSite).map fun entry => (entry.1.text, entry.2.value) := by
  cases isSent : CookieJar.sent jar now crossSite with
  | nil => rw [CookieJar.header_nil isSent, entries_nil, List.map_nil]
  | cons first rest =>
      have spaced : (fun entry => entryOf (unit 32 :: CookieJar.pair entry)) =
          fun entry => some (entry.1.text, entry.2.value) :=
        funext fun entry => (entryOf_pair entry).2
      rw [entries, CookieJar.split_header isSent, List.filterMap_cons, (entryOf_pair first).1,
        List.filterMap_map, List.map_cons]
      exact congrArg _ ((congrArg (fun read => rest.filterMap read) spaced).trans
        (congrFun List.filterMap_eq_map' rest))

theorem named_header (jar : Jar) (now : Timestamp) (crossSite : Bool) (name : CookieJar.Name) :
    named (header jar now crossSite) name.text =
      (((jar.get name).filter fun cookie => cookie.isSent now crossSite).map
        Cookie.value).toList := by
  rw [named, entries_header]
  exact CookieJar.sent_named jar now crossSite name

variable {flow : Flow}

/-- The jar holds the state that is awaited, and otherwise what the reader can bear. -/
structure Holds (flow : Flow) (jar : Jar) (awaiting : Option Awaiting) : Prop where
  bears : ∀ entry ∈ jar.entries, flow.bears entry.2.value = true
  plain : ∀ awaited ∈ awaiting, Plain awaited.state ∧ awaited.state ≠ []
  missing : awaiting = none → jar.get flow.stateCookie = none
  stored : ∀ awaited ∈ awaiting, ∃ cookie, jar.get flow.stateCookie = some cookie ∧
    cookie.value = awaited.state ∧ cookie.expiresAt = some awaited.expiresAt ∧
      cookie.strict = flow.strict

theorem callback_eq {jar : Jar} {awaiting : Option Awaiting} (holds : Holds flow jar awaiting)
    (now : Timestamp) (crossSite : Bool) (code state : Option JsString) :
    flow.callback (header jar now crossSite) code state =
      flow.verdict awaiting now crossSite code state := by
  have values := named_header jar now crossSite flow.stateCookie
  have borne : ∀ entry ∈ entries (header jar now crossSite), flow.bears entry.2 = true := by
    rw [entries_header]
    intro entry member
    obtain ⟨sent, isSent, rfl⟩ := List.mem_map.mp member
    exact holds.bears sent (List.mem_of_mem_filter isSent)
  cases awaiting with
  | none =>
      rw [holds.missing rfl] at values
      have reads := flow.reads _ borne (by simp [values]) (by simp [values])
      rw [Flow.callback, reads, values]
      rfl
  | some awaited =>
      obtain ⟨cookie, found, isState, expires, isStrict⟩ := holds.stored awaited rfl
      obtain ⟨plain, nonempty⟩ := holds.plain awaited rfl
      have decodes := UriDecoding.decodeURIComponent_plain plain
      have sent : cookie.isSent now crossSite =
          decide (now < awaited.expiresAt ∧ ¬ (crossSite = true ∧ flow.strict = true)) := by
        rw [Cookie.isSent, expires, isStrict]
        cases crossSite <;> cases flow.strict <;> simp
      rw [found, Option.filter_some, sent] at values
      by_cases arrives : now < awaited.expiresAt ∧ ¬ (crossSite = true ∧ flow.strict = true)
      · rw [if_pos (decide_eq_true arrives), Option.map_some, isState, Option.toList_some] at values
        have reads := flow.reads _ borne (by simp [values, decodes]) (by simp [values])
        rw [values, List.head?_cons, Option.bind_some, decodes] at reads
        rw [Flow.callback, reads, Flow.verdict]
        simp only [Answer.of]
        by_cases fits : code.getD [] ≠ [] ∧ state = some awaited.state
        · rw [if_neg (by simp [fits, nonempty]), if_pos ⟨arrives.1, arrives.2, fits⟩]
        · have refused : code.getD [] = [] ∨ state.getD [] = [] ∨ awaited.state = [] ∨
              state ≠ some awaited.state := by
            by_cases hasCode : code.getD [] = []
            · exact .inl hasCode
            · exact .inr (.inr (.inr fun same => fits ⟨hasCode, same⟩))
          rw [if_pos refused, if_neg fun all => fits all.2.2]
      · rw [if_neg (by simpa using arrives), Option.map_none, Option.toList_none] at values
        have reads := flow.reads _ borne (by simp [values]) (by simp [values])
        rw [Flow.callback, reads, values, Flow.verdict, if_neg fun all => arrives ⟨all.1, all.2.1⟩]
        rfl

/-! The steps, side by side. -/

theorem plain_state (drawn : List UInt8) : Plain (Base64Url.encode drawn) := by
  intro code member
  obtain ⟨value, bound, rfl⟩ := Base64Url.encode_digits drawn code member
  have digits : ∀ value < 64, UriDecoding.isUnescaped (Base64Url.digit value) = true := by
    decide +kernel
  exact digits value bound

theorem state_ne_nil {drawn : List UInt8} (isLength : drawn.length = stateBytes) :
    Base64Url.encode drawn ≠ [] := by
  intro empty
  have decoded := Base64Url.decode_encode drawn
  rw [empty] at decoded
  rw [← decoded] at isLength
  exact absurd isLength (by decide)

theorem cookie_plain (flow : Flow) {value : JsString} (plain : Plain value) (now : Timestamp) (maxAge : Int) :
    ∃ cookie, flow.cookie value now maxAge = some cookie ∧ cookie.value = value ∧
      cookie.expiresAt = some (now + maxAge) ∧ cookie.strict = flow.strict := by
  have fits : unit 59 ∉ value ∧ trim value = value := by
    constructor
    · intro member
      exact (UriDecoding.isUnescaped_bounds (plain _ member)).2.2.1 (by decide)
    · exact trim_of_shown fun code member => (UriDecoding.isUnescaped_bounds (plain code member)).2.2.2
  refine ⟨{ value, apart := fits.1, trimmed := fits.2, expiresAt := some (now + maxAge)
            strict := flow.strict }, ?_, rfl, rfl, rfl⟩
  rw [Flow.cookie, UriDecoding.encodeURIComponent_plain plain, Option.bind_some, Cookie.of,
    dif_pos fits]

theorem Holds.login {jar : Jar} {awaiting : Option Awaiting} (holds : Holds flow jar awaiting)
    {drawn : List UInt8} (isLength : drawn.length = stateBytes) {cookie : Cookie}
    {expiresAt : Timestamp} (isState : cookie.value = Base64Url.encode drawn)
    (expires : cookie.expiresAt = some expiresAt) (isStrict : cookie.strict = flow.strict) :
    Holds flow (jar.set flow.stateCookie cookie)
      (some { state := Base64Url.encode drawn, expiresAt }) := by
  constructor
  · intro entry member
    rcases JsMap.mem_set.mp member with rfl | ⟨before, _⟩
    · rw [isState]
      exact flow.bears_plain _ (plain_state drawn)
    · exact holds.bears entry before
  · rintro awaited ⟨⟩
    exact ⟨plain_state drawn, state_ne_nil isLength⟩
  · intro nothing
    cases nothing
  · rintro awaited ⟨⟩
    exact ⟨cookie, by rw [JsMap.get_set, if_pos rfl], isState, expires, isStrict⟩

theorem Holds.setOther {jar : Jar} {awaiting : Option Awaiting} (holds : Holds flow jar awaiting)
    {name : CookieJar.Name} {cookie : Cookie} (other : name ≠ flow.stateCookie)
    (borne : flow.bears cookie.value = true) : Holds flow (jar.set name cookie) awaiting := by
  have kept : (jar.set name cookie).get flow.stateCookie = jar.get flow.stateCookie := by
    rw [JsMap.get_set, if_neg (Ne.symm other)]
  refine { holds with bears := ?_, missing := ?_, stored := ?_ }
  · intro entry member
    rcases JsMap.mem_set.mp member with rfl | ⟨before, _⟩
    · exact borne
    · exact holds.bears entry before
  · rw [kept]
    exact holds.missing
  · rw [kept]
    exact holds.stored

theorem Holds.delete {jar : Jar} {awaiting : Option Awaiting} (holds : Holds flow jar awaiting)
    (name : CookieJar.Name) :
    Holds flow (jar.delete name) (if name = flow.stateCookie then none else awaiting) := by
  have borne : ∀ entry ∈ (jar.delete name).entries, flow.bears entry.2.value = true :=
    fun entry member => holds.bears entry (JsMap.mem_delete.mp member).1
  by_cases isState : name = flow.stateCookie
  · rw [if_pos isState]
    refine ⟨borne, by simp, fun _ => ?_, by simp⟩
    rw [isState, JsMap.get_delete_eq, if_pos rfl]
  · have kept : (jar.delete name).get flow.stateCookie = jar.get flow.stateCookie :=
      JsMap.get_delete isState
    rw [if_neg isState]
    refine { holds with bears := borne, missing := ?_, stored := ?_ }
    · rw [kept]
      exact holds.missing
    · rw [kept]
      exact holds.stored

structure Related (flow : Flow) (world : World) (spec : Spec) : Prop where
  history : world.history = spec.history
  holds : ∀ browser, Holds flow (world.jars browser) (spec.awaiting browser)

theorem Related.update {world : World} {spec : Spec} (related : Related flow world spec)
    (browser : Nat) {jar : Jar} {awaiting : Option Awaiting} (holds : Holds flow jar awaiting)
    (history : History) :
    Related flow { jars := Function.update world.jars browser jar, history }
      { awaiting := Function.update spec.awaiting browser awaiting, history } := by
  refine ⟨rfl, fun other => ?_⟩
  by_cases same : other = browser
  · subst same
    simpa using holds
  · simpa [Function.update_of_ne same] using related.holds other

theorem related_step {world : World} {spec : Spec} (related : Related flow world spec)
    (action : Action) :
    Option.Rel (Related flow) (flow.step world action) (flow.specStep spec action) := by
  obtain ⟨same, holds⟩ := related
  cases action with
  | wait milliseconds =>
      refine .some ⟨?_, holds⟩
      rw [same]
  | login browser drawn =>
      simp only [Flow.step, Flow.specStep]
      split
      · rename_i isLength
        obtain ⟨cookie, made, isState, expires, isStrict⟩ :=
          cookie_plain flow (plain_state drawn) world.history.now stateMaxAge
        rw [made, Option.map_some, ← same]
        exact .some (Related.update ⟨same, holds⟩ browser
          ((holds browser).login isLength isState expires isStrict) _)
      · exact .none
  | setOther browser name cookie =>
      simp only [Flow.step, Flow.specStep]
      split
      · rename_i allowed
        have updated := Related.update ⟨same, holds⟩ browser
          ((holds browser).setOther allowed.1 allowed.2) world.history
        rw [Function.update_eq_self] at updated
        exact .some ⟨same, updated.holds⟩
      · exact .none
  | forget browser name =>
      have updated := Related.update ⟨same, holds⟩ browser
        ((holds browser).delete name) world.history
      simp only [Flow.step, Flow.specStep]
      split
      · rename_i isState
        rw [if_pos isState] at updated
        exact .some ⟨same, updated.holds⟩
      · rename_i other
        rw [if_neg other, Function.update_eq_self] at updated
        exact .some ⟨same, updated.holds⟩
  | callback browser crossSite code state =>
      refine .some ⟨?_, holds⟩
      rw [callback_eq (holds browser), same]
  | complete index sessionId =>
      simp only [Flow.step, Flow.specStep, same]
      split
      · rename_i call found
        split
        · exact .none
        · cases sessionId with
          | none => exact .some ⟨rfl, holds⟩
          | some id =>
              dsimp only
              split
              · rename_i plain
                obtain ⟨cookie, made, isId, _, _⟩ := cookie_plain flow plain
                  spec.history.now (flow.ttlSeconds * 1000)
                have cleared := (holds call.browser).delete flow.stateCookie
                rw [if_pos rfl] at cleared
                rw [made, Option.map_some]
                exact .some (Related.update ⟨same, holds⟩ _
                  (cleared.setOther flow.apart (isId ▸ flow.bears_plain id plain)) _)
              · exact .none
      · exact .none

theorem related_start (flow : Flow) : Related flow .start .start := by
  refine ⟨rfl, fun _ => ⟨?_, ?_, fun _ => rfl, ?_⟩⟩ <;> simp [World.start, Spec.start, JsMap.empty]

/-- The state was given to the browser less than five minutes before. -/
def History.Given (history : History) (browser : Nat) (state : JsString) (at_ : Timestamp) : Prop :=
  ∃ login ∈ history.logins, login.browser = browser ∧ login.state = state ∧
    login.at_ ≤ at_ ∧ at_ < login.at_ + stateMaxAge

structure Traced (spec : Spec) : Prop where
  awaiting : ∀ browser, ∀ awaited ∈ spec.awaiting browser, ∃ login ∈ spec.history.logins,
    login.browser = browser ∧ login.state = awaited.state ∧ login.at_ ≤ spec.history.now ∧
      awaited.expiresAt = login.at_ + stateMaxAge
  calls : ∀ call ∈ spec.history.calls, spec.history.Given call.browser call.state call.at_
  sessions : ∀ session ∈ spec.history.sessions,
    spec.history.Given session.browser session.state session.calledAt

theorem traced_start : Traced .start := by
  constructor <;> simp [Spec.start, History.start]

theorem History.Given.loggedIn {history : History} {browser : Nat} {state : JsString}
    {at_ : Timestamp} (given : history.Given browser state at_) (other : Nat) (drawn : JsString) :
    (history.loggedIn other drawn).Given browser state at_ := by
  obtain ⟨login, member, isLogin⟩ := given
  exact ⟨login, List.mem_append_left _ member, isLogin⟩

theorem verdict_exchanging {awaiting : Option Awaiting} {now : Timestamp} {crossSite : Bool}
    {code state : Option JsString} {expected : JsString}
    (exchanges : flow.verdict awaiting now crossSite code state = .exchanging expected) :
    ∃ awaited ∈ awaiting, expected = awaited.state ∧ now < awaited.expiresAt := by
  cases awaiting with
  | none => cases exchanges
  | some awaited =>
      rw [Flow.verdict] at exchanges
      split at exchanges
      · rename_i inTime
        exact ⟨awaited, rfl, (Verdict.exchanging.inj exchanges).symm, inTime.1⟩
      · cases exchanges

theorem Traced.called {spec : Spec} (traced : Traced spec) (flow : Flow) (browser : Nat)
    (crossSite : Bool) (code state : Option JsString) :
    let verdict := flow.verdict (spec.awaiting browser) spec.history.now crossSite code state
    Traced { spec with history := spec.history.called browser verdict } := by
  intro verdict
  refine { traced with calls := ?_ }
  intro call member
  rcases List.mem_append.mp member with before | isNew
  · exact traced.calls call before
  · cases isVerdict : verdict with
    | exchanging expected =>
        obtain ⟨awaited, isAwaited, rfl, inTime⟩ := verdict_exchanging isVerdict
        obtain ⟨login, isLogin, sameBrowser, sameState, earlier, expires⟩ :=
          traced.awaiting browser awaited isAwaited
        rw [isVerdict] at isNew
        rw [List.mem_singleton.mp isNew]
        exact ⟨login, isLogin, sameBrowser, sameState, earlier, expires ▸ inTime⟩
    | failed | unauthorized =>
        rw [isVerdict] at isNew
        cases isNew

theorem Traced.ended {spec : Spec} (traced : Traced spec) {index : Nat} {call : Call}
    (found : spec.history.calls[index]? = some call) (sessionId : Option JsString)
    {awaiting : Nat → Option Awaiting}
    (fewer : ∀ browser, ∀ awaited ∈ awaiting browser, awaited ∈ spec.awaiting browser) :
    Traced { awaiting, history := spec.history.ended index call sessionId } := by
  have given := traced.calls call (List.mem_of_getElem? found)
  constructor
  · intro browser awaited isAwaited
    exact traced.awaiting browser awaited (fewer browser awaited isAwaited)
  · intro other member
    rcases List.mem_or_eq_of_mem_set member with before | rfl
    · exact traced.calls other before
    · exact given
  · intro session member
    rcases List.mem_append.mp member with before | isNew
    · exact traced.sessions session before
    · obtain ⟨id, _, rfl⟩ := Option.map_eq_some_iff.mp (Option.mem_toList.mp isNew)
      exact given

theorem traced_step {flow : Flow} {spec next : Spec} {action : Action} (traced : Traced spec)
    (taken : flow.specStep spec action = some next) : Traced next := by
  have cleared (browser : Nat) : ∀ other, ∀ awaited ∈ Function.update spec.awaiting browser none other,
      awaited ∈ spec.awaiting other := by
    intro other awaited isAwaited
    by_cases same : other = browser
    · simp [same] at isAwaited
    · rwa [Function.update_of_ne same] at isAwaited
  cases action with
  | wait milliseconds =>
      obtain rfl := Option.some.inj taken
      refine { traced with awaiting := fun browser awaited isAwaited => ?_ }
      obtain ⟨login, isLogin, sameBrowser, sameState, earlier, expires⟩ :=
        traced.awaiting browser awaited isAwaited
      exact ⟨login, isLogin, sameBrowser, sameState,
        Int.le_trans earlier (Int.le_add_of_nonneg_right (Int.natCast_nonneg _)), expires⟩
  | login browser drawn =>
      obtain ⟨_, isNext⟩ := Option.ite_none_right_eq_some.mp taken
      obtain rfl := Option.some.inj isNext
      constructor
      · intro other awaited isAwaited
        change awaited ∈ Function.update spec.awaiting browser _ other at isAwaited
        by_cases same : other = browser
        · subst same
          rw [Function.update_self] at isAwaited
          obtain rfl := Option.some.inj isAwaited
          exact ⟨_, List.mem_append_right _ (List.mem_singleton.mpr rfl), rfl, rfl, Int.le_refl _, rfl⟩
        · rw [Function.update_of_ne same] at isAwaited
          obtain ⟨login, isLogin, known⟩ := traced.awaiting other awaited isAwaited
          exact ⟨login, List.mem_append_left _ isLogin, known⟩
      · exact fun call member => (traced.calls call member).loggedIn _ _
      · exact fun session member => (traced.sessions session member).loggedIn _ _
  | setOther browser name cookie =>
      obtain ⟨_, isNext⟩ := Option.ite_none_right_eq_some.mp taken
      obtain rfl := Option.some.inj isNext
      exact traced
  | forget browser name =>
      simp only [Flow.specStep] at taken
      split at taken
      · obtain rfl := Option.some.inj taken
        refine { traced with awaiting := fun other awaited isAwaited => ?_ }
        exact traced.awaiting other awaited (cleared browser other awaited isAwaited)
      · obtain rfl := Option.some.inj taken
        exact traced
  | callback browser crossSite code state =>
      obtain rfl := Option.some.inj taken
      exact traced.called flow browser crossSite code state
  | complete index sessionId =>
      simp only [Flow.specStep] at taken
      split at taken
      · rename_i call found
        split at taken
        · cases taken
        · cases sessionId with
          | none =>
              obtain rfl := Option.some.inj taken
              exact traced.ended found none fun _ _ isAwaited => isAwaited
          | some id =>
              obtain ⟨_, isNext⟩ := Option.ite_none_right_eq_some.mp taken
              obtain rfl := Option.some.inj isNext
              exact traced.ended found (some id) (cleared call.browser)
      · cases taken

/-- Nobody is logged in by a callback that the browser did not ask for itself. -/
theorem session_of_login {flow : Flow} {actions : List Action} {world : World}
    (ran : run flow.step .start actions = some world) :
    ∀ session ∈ world.history.sessions,
      world.history.Given session.browser session.state session.calledAt := by
  have related := run_rel flow.step (fun _ _ action related => related_step related action)
    (related_start flow) actions
  rw [ran] at related
  generalize mirrored : run flow.specStep .start actions = right at related
  cases related with
  | some related =>
      have traced := invariant_run flow.specStep
        (fun _ _ _ traced taken => traced_step traced taken) mirrored traced_start
      rw [related.history]
      exact traced.sessions

def dashboardSession : CookieJar.Name :=
  { text := js "ghost_dash_sid", apart := by decide +kernel, trimmed := by decide +kernel }

def laxFlow : Flow := dashboardFlow dashboardSession (by decide +kernel) false 43200

def honestLogin : List Action :=
  [.login 0 (List.replicate 16 7), .wait 60000,
    .callback 0 true (some (js "code")) (some (Base64Url.encode (List.replicate 16 7))),
    .complete 0 (some (js "session"))]

def loggedInWorld : World := (run laxFlow.step .start honestLogin).get (by decide +kernel)

theorem session_of_login_honest : loggedInWorld.history.sessions.length = 1 ∧
    ∀ session ∈ loggedInWorld.history.sessions,
      loggedInWorld.history.Given session.browser session.state session.calledAt :=
  ⟨by decide +kernel, session_of_login (Option.some_get _).symm⟩

end OAuthLogin
