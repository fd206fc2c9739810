import Aelf.Lectures.DateLabels
import Aelf.Lectures.IntentUri
import Aelf.Lectures.Loading
import Aelf.Sync.Window

/-! # The page of a failed load

When an office cannot be loaded a page says why: the settings keep it from being
synchronised, the server fails, or there is no network.  The page on the settings has a link
that sets them to what the synchronisation needs, and the page on the server one that tries
again.  Both links go through the client of the web view to the activity. -/

namespace Aelf.Lectures.ErrorPage

open Aelf.Library
open Aelf.Library.Calendar (Date Moment)
open Aelf.Sync (Preferences SyncRun getStringPreference getOfficeTypesToSync getDaysAheadToSync)
open Loading (ErrorMessage Page)

/-! ## Links of a page -/

/-- `replace` by nothing: the number of characters still to be dropped, and the text. -/
def removing (target : Text) : Nat → Text → Text
  | _, [] => []
  | dropped + 1, _ :: rest => removing target dropped rest
  | 0, c :: rest =>
    if target.isPrefixOf (c :: rest) then removing target (target.length - 1) rest else c :: removing target 0 rest

/-- What the client does with a link; the page itself never follows it. -/
inductive Handling where
  | onIntent (uri : Text)
  | sendMail (uri : Text)
  | startActivity (uri : Text)
  | ignored
deriving DecidableEq

/-- The scheme of a link whose colon has got blanks around it. -/
def repairScheme (url : Text) : List String → Text
  | [] => url
  | scheme :: schemes =>
    let blanks := scheme.toList ++ "%C2%A0:%20".toList
    if blanks.isPrefixOf url then scheme.toList ++ ':' :: url.drop blanks.length else repairScheme url schemes

def shouldOverrideUrlLoading (url : Text) : Handling :=
  let url := repairScheme (removing "file:///android_asset/".toList 0 url) ["http", "https", "mailto", "aelf"]
  if Uri.getHost url = some "www.aelf.org".toList ∨ "aelf:".toList.isPrefixOf url then .onIntent url
  else if "mailto:".toList.isPrefixOf url then .sendMail url
  else if Uri.getScheme url ≠ none then .startActivity url
  else .ignored

/-- The address of the link in a message, if there is one. -/
def link : ErrorMessage → Option Text
  | .noNetwork => none
  | .connection => some "aelf://app.epitre.co/action/refresh".toList
  | .subOptimalSettings => some "aelf://app.epitre.co/action/apply-optimal-sync-settings".toList

/-! ## Settings -/

/-- The preferences that matter to a failed load and to the sync. -/
structure Settings where
  sync : Preferences
  wifiOnly : Option Bool
  server : Option String
  beta : Option Bool
  nocache : Option Bool

def onApplyOptimalSyncSettings (settings : Settings) : Settings where
  sync := { settings.sync with duree := some "mois", lectures := some "messe-offices" }
  wifiOnly := some false
  server := some ""
  beta := some false
  nocache := some false

/-- A time zone: how many milliseconds local time is ahead of UTC, never more than eighteen hours. -/
structure TimeZone where
  offset : Moment → Int
  bounded : ∀ moment, -64800000 ≤ offset moment ∧ offset moment ≤ 64800000

section Failure

variable {α : Type} (zone : TimeZone)

/-- Counted from a day that is the same for all dates. -/
def getTimeInMillis (date : AelfDate) : Int :=
  date.day.dayNumber * 86400000 + date.moment.millis - zone.offset date.moment

def dayBetween (date other : AelfDate) : Int :=
  (getTimeInMillis zone date - getTimeInMillis zone other).tdiv 86400000

def detectSubOptimalSettings (settings : Settings) (what : OfficeTypes) (when now : AelfDate) : Bool :=
  if 20 < dayBetween zone when now then false
  else if settings.server.getD "" ≠ "" then true
  else if getStringPreference settings.sync.duree "mois" ≠ "mois" then true
  else if what ≠ .messe ∧ getStringPreference settings.sync.lectures "messe-offices" ≠ "messe-offices" then true
  else false

def onPostExecute (settings : Settings) (what : OfficeTypes) (when now : AelfDate) (networkAvailable : Bool) :
    Option α → Page α
  | some office => .office office
  | none =>
    if detectSubOptimalSettings zone settings what when now then .error .subOptimalSettings
    else if networkAvailable then .error .connection
    else .error .noNetwork

/-! ## Reading, following links and changing settings -/

/-- The settings, the office that is asked for, and the page that is shown for it. -/
structure State (α : Type) where
  settings : Settings
  what : OfficeTypes
  when : AelfDate
  page : Option (Page α)

/-- How a load ends: the time, the network, and the office if there is one. -/
structure Load (α : Type) where
  now : AelfDate
  networkAvailable : Bool
  office : Option α

inductive Event (α : Type) where
  | loadLecture (what : OfficeTypes) (when : AelfDate) (load : Load α)
  /-- The link of the page is followed. -/
  | followLink (load : Load α)
  | setSettings (settings : Settings)

namespace State

variable {zone}

def load (zone : TimeZone) (state : State α) (load : Load α) : State α :=
  { state with
    page := some (onPostExecute zone state.settings state.what state.when load.now load.networkAvailable load.office) }

/-- What the activity does for a link of an error page. -/
def act (zone : TimeZone) (load : Load α) (state : State α) : Action → State α
  | .setSection _ => state
  | .onRefresh _ => state.load zone load
  | .onApplyOptimalSyncSettings => { state with settings := onApplyOptimalSyncSettings state.settings }.load zone load

def followLink (zone : TimeZone) (state : State α) (load : Load α) : State α :=
  match state.page with
  | some (.error message) =>
    match (link message).map shouldOverrideUrlLoading with
    | some (.onIntent uri) => (onLink uri).foldl (act zone load) state
    | _ => state
  | _ => state

def apply (zone : TimeZone) (state : State α) : Event α → State α
  | .loadLecture what when load => { state with what := what, when := when }.load zone load
  | .followLink load => state.followLink zone load
  | .setSettings settings => { state with settings := settings }

def run (zone : TimeZone) (state : State α) (events : List (Event α)) : State α :=
  events.foldl (apply zone) state

end State

/-! ## Settings that keep nothing back -/

/-- Neither a server of one's own, nor fewer days or fewer offices than there are. -/
structure Optimal (settings : Settings) : Prop where
  server : settings.server.getD "" = ""
  duree : getStringPreference settings.sync.duree "mois" = "mois"
  lectures : getStringPreference settings.sync.lectures "messe-offices" = "messe-offices"

theorem optimal_onApplyOptimalSyncSettings (settings : Settings) : Optimal (onApplyOptimalSyncSettings settings) :=
  ⟨rfl, rfl, rfl⟩

variable {zone}

theorem Optimal.detectSubOptimalSettings {settings : Settings} (optimal : Optimal settings) (what : OfficeTypes)
    (when now : AelfDate) : detectSubOptimalSettings zone settings what when now = false := by
  simp [ErrorPage.detectSubOptimalSettings, optimal.server, optimal.duree, optimal.lectures]

/-- Settings that are not blamed have the office synchronised for a month. -/
theorem synced_of_detectSubOptimalSettings {settings : Settings} {what : OfficeTypes} {when now : AelfDate}
    (near : dayBetween zone when now ≤ 20)
    (notBlamed : ErrorPage.detectSubOptimalSettings zone settings what when now = false) :
    what ∈ getOfficeTypesToSync settings.sync ∧ getDaysAheadToSync settings.sync = 31 := by
  unfold ErrorPage.detectSubOptimalSettings at notBlamed
  rw [if_neg (Int.not_lt.mpr near)] at notBlamed
  split at notBlamed
  · cases notBlamed
  split at notBlamed
  · cases notBlamed
  next month =>
    split at notBlamed
    · cases notBlamed
    next offices =>
      constructor
      · unfold getOfficeTypesToSync
        split
        · cases what <;> decide
        next onlyMass =>
          have isMass : what = .messe := by
            by_contra other
            exact offices ⟨other, onlyMass⟩
          simp [isMass]
      · have isMonth := not_not.mp month
        simp [getDaysAheadToSync, isMonth]

/-- A day that is counted as at most twenty ahead is one of the month, wherever clocks are changed on the way. -/
theorem daysAhead_lt_of_dayBetween {when now : AelfDate} (near : dayBetween zone when now ≤ 20) :
    when.day.dayNumber - now.day.dayNumber < 31 := by
  have whenTime := when.moment.millis_lt
  have nowTime := now.moment.millis_lt
  have whenOffset := zone.bounded when.moment
  have nowOffset := zone.bounded now.moment
  have divided := Int.mul_tdiv_add_tmod (getTimeInMillis zone when - getTimeInMillis zone now) 86400000
  have remainder := Int.tmod_lt_of_pos (getTimeInMillis zone when - getTimeInMillis zone now)
    (by decide : (0 : Int) < 86400000)
  rw [dayBetween] at near
  have elapsed : getTimeInMillis zone when - getTimeInMillis zone now =
      when.day.dayNumber * 86400000 + when.moment.millis - zone.offset when.moment -
        (now.day.dayNumber * 86400000 + now.moment.millis - zone.offset now.moment) := rfl
  omega

/-- When the page of a failed load does not blame the settings, although the day is at most twenty days ahead, the
synchronisation has the office: every run of it on that day that stores what it has scheduled leaves the office where
`load` finds it. -/
theorem unblamed_office_is_synced [HttpDateFormat] {settings : Settings} {what : OfficeTypes} {when now : AelfDate}
    {networkAvailable : Bool} {message : ErrorMessage}
    (shown : onPostExecute zone settings what when now networkAvailable (none : Option α) = .error message)
    (notBlamed : message ≠ .subOptimalSettings) (near : dayBetween zone when now ≤ 20) (future : now.day ≤ when.day)
    (run : SyncRun α) (same : run.preferences = settings.sync) (constant : run.clock.Constant now.day)
    (years : run.FourDigitYears now.day) (completed : run.Completed) :
    ∃ row, run.finalCache.queryRow what when run.apiVersion = some row ∧
      ((∃ entry, run.finalCache.load what when run.apiVersion = .ok (some entry)) ∨
        (run.cache.queryRow what when run.apiVersion = some row ∧ ∃ exception, row.lectures = .error exception)) := by
  have accepted : ErrorPage.detectSubOptimalSettings zone settings what when now = false := by
    by_contra blamed
    rw [Bool.not_eq_false] at blamed
    rw [onPostExecute, if_pos blamed] at shown
    exact notBlamed (Page.error.inj shown).symm
  obtain ⟨selected, month⟩ := synced_of_detectSubOptimalSettings near accepted
  rw [← same] at selected month
  -- The office is one of the window, counted in days from the run.
  obtain ⟨ahead, counted⟩ : ∃ ahead : Nat, when.day.dayNumber - now.day.dayNumber = ahead :=
    Int.eq_ofNat_of_zero_le (by have := (Date.le_iff_dayNumber_le _ _).mp future; omega)
  have onDay : when.day = now.day.addDays ahead := by
    apply Date.dayNumber_injective
    rw [Date.dayNumber_addDays]
    omega
  have inWindow : ahead < run.daysAheadToSync := by
    have within := daysAhead_lt_of_dayBetween near
    rw [SyncRun.daysAheadToSync, month]
    omega
  exact SyncRun.windowFilled_of_completed constant years completed what selected ahead inWindow when onDay

/-! ## Following the link -/

theorem shouldOverrideUrlLoading_link (message : ErrorMessage) :
    (link message).map shouldOverrideUrlLoading = (link message).map .onIntent := by
  cases message <;> decide +kernel

theorem onLink_connection : (link .connection).map onLink = some [.onRefresh "lectureLink"] := by decide +kernel

theorem onLink_subOptimalSettings : (link .subOptimalSettings).map onLink = some [.onApplyOptimalSyncSettings] := by
  decide +kernel

namespace State

/-- What the pages say that their links do. -/
def promised (zone : TimeZone) (load : Load α) (state : State α) : ErrorMessage → State α
  | .noNetwork => state
  | .connection => state.load zone load
  | .subOptimalSettings => { state with settings := onApplyOptimalSyncSettings state.settings }.load zone load

theorem followLink_error {state : State α} {message : ErrorMessage} (shown : state.page = some (.error message))
    (load : Load α) : state.followLink zone load = state.promised zone load message := by
  rw [followLink, shown]
  simp only [shouldOverrideUrlLoading_link]
  cases message with
  | noNetwork => rfl
  | connection =>
    have routed := onLink_connection
    simp only [link, Option.map_some, Option.some.injEq] at routed ⊢
    rw [routed]
    rfl
  | subOptimalSettings =>
    have routed := onLink_subOptimalSettings
    simp only [link, Option.map_some, Option.some.injEq] at routed ⊢
    rw [routed]
    rfl

/-- The settings keep nothing back, and are not blamed. -/
structure Cleared (state : State α) : Prop where
  optimal : Optimal state.settings
  notBlamed : state.page ≠ some (.error .subOptimalSettings)

theorem cleared_load {state : State α} (optimal : Optimal state.settings) (load : Load α) :
    (state.load zone load).Cleared := by
  refine ⟨optimal, fun blamed => ?_⟩
  obtain ⟨now, networkAvailable, office⟩ := load
  have page := Option.some.inj blamed
  cases office with
  | some office => cases page
  | none =>
    rw [onPostExecute, optimal.detectSubOptimalSettings] at page
    cases networkAvailable <;> cases page

def keepsSettings : Event α → Prop
  | .setSettings _ => False
  | .loadLecture _ _ _ | .followLink _ => True

theorem cleared_followLink {state : State α} (cleared : state.Cleared) (load : Load α) :
    (state.followLink zone load).Cleared := by
  cases page : state.page with
  | none =>
    rw [followLink, page]
    exact cleared
  | some shown =>
    cases shown with
    | office office =>
      rw [followLink, page]
      exact cleared
    | error message =>
      rw [followLink_error page]
      cases message with
      | noNetwork => exact cleared
      | connection => exact cleared_load cleared.optimal load
      | subOptimalSettings => exact absurd page cleared.notBlamed

theorem cleared_apply (state : State α) (event : Event α) (keeps : keepsSettings event) (cleared : state.Cleared) :
    (state.apply zone event).Cleared := by
  cases event with
  | loadLecture what when load =>
    have optimal : Optimal { state with what := what, when := when }.settings := cleared.optimal
    exact cleared_load optimal load
  | followLink load => exact cleared_followLink cleared load
  | setSettings settings => exact keeps.elim

/-- Whoever follows the link of the page on the settings is not shown that page again, whatever is loaded and
followed after it, until the settings are changed; and the sync has every office for a month. -/
theorem settings_page_settled {state : State α} (shown : state.page = some (.error .subOptimalSettings))
    (load : Load α) {events : List (Event α)} (keep : ∀ event ∈ events, keepsSettings event) :
    (state.run zone (.followLink load :: events)).page ≠ some (.error .subOptimalSettings) ∧
      getOfficeTypesToSync (state.run zone (.followLink load :: events)).settings.sync = OfficeTypes.values ∧
      getDaysAheadToSync (state.run zone (.followLink load :: events)).settings.sync = 31 := by
  have first : (state.followLink zone load).Cleared := by
    rw [followLink_error shown]
    exact cleared_load (optimal_onApplyOptimalSyncSettings state.settings) load
  have allowed := Runs.allowed_of_forall (apply zone) keep (state.followLink zone load)
  have final : ((state.followLink zone load).run zone events).Cleared :=
    Runs.invariant_run (apply zone) Cleared cleared_apply allowed first
  have afterLink : state.run zone (.followLink load :: events) = (state.followLink zone load).run zone events := rfl
  rw [afterLink]
  refine ⟨final.notBlamed, ?_, ?_⟩
  · rw [getOfficeTypesToSync, if_pos final.optimal.lectures]
  · rw [getDaysAheadToSync, final.optimal.duree]
    rfl

end State

end Failure

namespace Vespers

def paris : TimeZone := ⟨fun _ => 7200000, fun _ => by decide⟩

def today : AelfDate := .ofDay Sync.OneWeek.inMay

/-- The settings of a new installation. -/
def defaults : Settings := ⟨⟨none, none, none⟩, none, none, none, none⟩

def sync [HttpDateFormat] : SyncRun Office :=
  .sequential defaults.sync (Sync.OneWeek.clock today.day) Table.empty none Sync.OneWeek.env

theorem years [HttpDateFormat] : sync.FourDigitYears today.day where
  cutoff := (by decide : FourDigitYear (Sync.getRetentionCutoffDate defaults.sync today).day)
  last := (by decide : FourDigitYear (today.day.addDays (getDaysAheadToSync defaults.sync - 1 : Nat)))

theorem vespers_synced :
    letI : HttpDateFormat := ⟨fun _ => none⟩
    ∃ row, (sync.finalCache.queryRow .vepres (today.addDays 20) 82 = some row) ∧
      ((∃ entry, sync.finalCache.load .vepres (today.addDays 20) 82 = .ok (some entry)) ∨
        (sync.cache.queryRow .vepres (today.addDays 20) 82 = some row ∧
          ∃ exception, row.lectures = .error exception)) := by
  let _ : HttpDateFormat := ⟨fun _ => none⟩
  have shown : onPostExecute paris defaults .vepres (today.addDays 20) today true (none : Option Office) =
      .error .connection := rfl
  exact unblamed_office_is_synced shown (by decide) (by decide +kernel) (by decide +kernel) sync rfl
    (Sync.OneWeek.constant today.day) years (SyncRun.completed_sequential fun _ => rfl)

/-- Only the mass is synchronised, for a week. -/
def onlyMass : Settings := ⟨Sync.OneWeek.preferences, some true, none, none, none⟩

def failed : Load Office := ⟨today, true, none⟩

def blamed : State Office := ⟨onlyMass, .vepres, today, some (.error .subOptimalSettings)⟩

theorem blamed_settled :
    (blamed.run paris [.followLink failed, .loadLecture .laudes today failed, .followLink failed]).page ≠
        some (.error .subOptimalSettings) ∧
      getOfficeTypesToSync (blamed.run paris [.followLink failed, .loadLecture .laudes today failed,
        .followLink failed]).settings.sync = OfficeTypes.values ∧
      getDaysAheadToSync (blamed.run paris [.followLink failed, .loadLecture .laudes today failed,
        .followLink failed]).settings.sync = 31 :=
  State.settings_page_settled rfl failed (by simp [State.keepsSettings])

end Vespers

end Aelf.Lectures.ErrorPage
