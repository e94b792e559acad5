import VoxelScout.Api
import VoxelScout.Proofs.Api.Routing
import VoxelScout.Proofs.Controls.Holding
import VoxelScout.Proofs.Json.Numerals

/-! # Requests that act

A request either changes nothing, because it reads or is denied, or it has the bot do one
thing, with the arguments that path and body give. Which of the two is decided by the path,
the body and what the bot believes before anything is done.
-/

namespace VoxelScout

theorem Text.trimChars_eq_nil_iff (cs : List Char) :
    Text.trimChars cs = [] ↔ ∀ c ∈ cs, Text.isBlank c = true := by
  unfold Text.trimChars
  rw [List.reverse_eq_nil_iff, List.dropWhile_eq_nil_iff]
  constructor
  · intro hall
    rw [← List.dropWhile_eq_nil_iff]
    cases hrest : cs.dropWhile Text.isBlank with
    | nil => rfl
    | cons c rest =>
        -- what is left begins with a character that is not blank
        have hhead := List.head?_dropWhile_not Text.isBlank cs
        rw [hrest] at hhead
        simp [hall c (by simp [hrest])] at hhead
  · intro hall c hc
    exact hall c (List.dropWhile_subset _ (List.mem_reverse.mp hc))

theorem Text.isEmpty_trim_iff {s : String} :
    (Text.trim s).isEmpty = true ↔ ∀ c ∈ s.toList, Text.isBlank c = true := by
  rw [← Text.trimChars_eq_nil_iff, Text.trim]
  simp

theorem Axis.ofName?_eq_some_iff {name : String} {a : Axis} :
    Axis.ofName? name = some a ↔ a.name = name := by
  constructor
  · intro h
    simpa using List.find?_some h
  · rintro rfl
    cases a <;> decide

theorem Axis.ofName?_eq_none_iff {name : String} :
    Axis.ofName? name = none ↔ ∀ a : Axis, a.name ≠ name := by
  constructor
  · intro h a ha
    rw [Axis.ofName?_eq_some_iff.mpr ha] at h
    cases h
  · intro h
    rw [Option.eq_none_iff_forall_ne_some]
    exact fun a ha => h a (Axis.ofName?_eq_some_iff.mp ha)

namespace Api

open Json

/-! ## What requests ask for -/

/-- What is wrong with a request to act, whatever the bot believes: an identifier or the name
of a control that is none, or a body that does not say what to do. -/
def Malformed [BodyReader] (r : Request) : Endpoint → Prop
  | .attack text => PlayerId.parse? text = none
  | .control name => (∀ axis : Axis, axis.name ≠ name) ∨ r.duration? = none ∨
      ∃ n, r.duration? = some n ∧ n ≤ 0
  | .look => r.angles? = none ∨ ∃ h, r.angles? = some h ∧ (h.1 = none ∨ h.2 = none)
  | .lookAt text => PlayerId.parse? text = none
  | .chat => r.message? = none ∨
      ∃ message, r.message? = some message ∧ ∀ c ∈ message.toList, Text.isBlank c = true
  | _ => False

def Unlocated (bot : Bot Float) : Endpoint → Prop
  | .lookAt text => ∃ id, PlayerId.parse? text = some id ∧
      ∀ b, bot.sight.player? id = some b → b.position = none
  | _ => False

variable {σ : Type} (host : Option (Host σ Float)) (bot : Bot Float) (s : σ) (bridge : Json)
  (r : Request) (now : Instant)

/-- What a request makes the bot do: one call with the arguments that the request gives. The
document says what was done. -/
inductive Done [BodyReader] : Endpoint → Json → Bot Float × σ → Prop where
  | attack {text : String} {id : PlayerId} (hid : PlayerId.parse? text = some id) :
      Done (.attack text)
        (.object [("target", id.toJson), ("dispatched", .bool (bot.attack host s id now).1)])
        (bot.attack host s id now).2
  | hold {axis : Axis} {n : Int} (hbody : r.duration? = some n) (hn : 0 < n) :
      Done (.control axis.name)
        (.object [("control", .string axis.name), ("duration_ms", .int n)])
        (bot.hold host s axis (spanOf n) now)
  | look {yaw pitch : Float} (hbody : r.angles? = some (some yaw, some pitch)) :
      Done .look (.object [("yaw", .float yaw), ("pitch", .float pitch)])
        (bot.look host s ⟨yaw, pitch⟩)
  | lookAt {text : String} {id : PlayerId} {b : Belief Float} {position : Vec Float}
      (hid : PlayerId.parse? text = some id) (hplayer : bot.sight.player? id = some b)
      (hposition : b.position = some position) :
      Done (.lookAt text)
        (.object [("target", id.toJson), ("position", (position.add ⟨0, 0.9, 0⟩).toJson)])
        (bot.lookAt host s (position.add ⟨0, 0.9, 0⟩))
  | chat {message : String} (hbody : r.message? = some message)
      (hsaid : ∃ c ∈ message.toList, Text.isBlank c = false) :
      Done .chat (.object [("sent", .bool true)]) (bot, Bot.chat host s message)

section

variable [BodyReader] {host bot s r now}

theorem not_unlocated_of_malformed {e : Endpoint} (h : Malformed r e) : ¬Unlocated bot e := by
  cases e with
  | lookAt text =>
      rintro ⟨id, hid, -⟩
      rw [Malformed, hid] at h
      cases h
  | health | status | players | player | nearest | sounds | combat | bridge | attack | control
  | look | chat => exact id

theorem Done.not_malformed {e : Endpoint} {document : Json} {after : Bot Float × σ}
    (h : Done host bot s r now e document after) : ¬Malformed r e := by
  cases h with
  | attack hid | lookAt hid =>
      intro hwrong
      rw [Malformed, hid] at hwrong
      cases hwrong
  | @hold axis n hbody hn =>
      rw [Malformed, hbody]
      rintro (hname | hnone | ⟨m, hm, hpositive⟩)
      · exact hname axis rfl
      · cases hnone
      · cases hm
        omega
  | look hbody =>
      rw [Malformed, hbody]
      rintro (hnone | ⟨angles, hangles, hmissing⟩)
      · cases hnone
      · cases hangles
        simp at hmissing
  | chat hbody hsaid =>
      rw [Malformed, hbody]
      rintro (hnone | ⟨message, hmessage, hblank⟩)
      · cases hnone
      · cases hmessage
        obtain ⟨c, hc, hnot⟩ := hsaid
        rw [hblank c hc] at hnot
        cases hnot

theorem Done.not_unlocated {e : Endpoint} {document : Json} {after : Bot Float × σ}
    (h : Done host bot s r now e document after) : ¬Unlocated bot e := by
  cases h with
  | lookAt hid hplayer hposition =>
      rintro ⟨id, hid', hunknown⟩
      rw [hid] at hid'
      cases hid'
      rw [hunknown _ hplayer] at hposition
      cases hposition
  | attack | hold | look | chat => exact id

end

/-! ## Answers -/

theorem Denial.response_status [Diagnostics] (d : Denial) : d.response.status = d.status := by
  have hwritable : Writable (.object [("error", .string d.message)]) := by
    apply writable_object
    simp [writable_string]
  rw [response, Response.ofJson, hwritable.write?_eq]

/-- A document is the answer unless it cannot be written. -/
theorem Response.ofJson_cases [Diagnostics] (document : Json) :
    Response.ofJson 200 document = ⟨200, .json document⟩ ∨
      (Response.ofJson 200 document).status = 500 := by
  unfold Response.ofJson
  split
  · exact .inl rfl
  · exact .inr rfl

/-- The middle of a body is 0.9 above its position. -/
theorem raise_half_height (position : Vec Float) :
    position.raise (Stature.standard.height / 2) = position.add ⟨0, 0.9, 0⟩ := by
  have hhalf : (Stature.standard : Stature Float).height / 2 = 0.9 := by decide +kernel
  rw [hhalf]
  rfl

/-! ## One endpoint at a time -/

variable [BodyReader] [Diagnostics]

/-- What becomes of a request to act: it is denied for what it says or for what the bot does
not know, and nothing happens, or it is done. -/
inductive Outcome (e : Endpoint) : Response × Bot Float × σ → Prop where
  | malformed {d : Denial} (hwrong : Malformed r e) (hstatus : d.status = 400) :
      Outcome e (d.response, bot, s)
  | unlocated {d : Denial} (hwrong : Unlocated bot e) (hstatus : d.status = 404) :
      Outcome e (d.response, bot, s)
  | done {document : Json} {outcome : Bot Float × σ}
      (hdone : Done host bot s r now e document outcome) :
      Outcome e (Response.ofJson 200 document, outcome)

section

variable {host bot s bridge r now} {e : Endpoint}

theorem Outcome.of_malformed {d : Denial} (hacts : e.reads = false)
    (horder : orderOf bot r e = .error d) (hwrong : Malformed r e) (hstatus : d.status = 400) :
    Outcome host bot s r now e (serve host bot s bridge r now e) := by
  have hserved : serve host bot s bridge r now e = (d.response, bot, s) := by
    simp [serve, hacts, horder]
  rw [hserved]
  exact .malformed hwrong hstatus

theorem Outcome.of_unlocated {d : Denial} (hacts : e.reads = false)
    (horder : orderOf bot r e = .error d) (hwrong : Unlocated bot e) (hstatus : d.status = 404) :
    Outcome host bot s r now e (serve host bot s bridge r now e) := by
  have hserved : serve host bot s bridge r now e = (d.response, bot, s) := by
    simp [serve, hacts, horder]
  rw [hserved]
  exact .unlocated hwrong hstatus

theorem Outcome.of_order {order : Order} (hacts : e.reads = false)
    (horder : orderOf bot r e = .ok order)
    (hdone : Done host bot s r now e (perform host bot s now order).1
      (perform host bot s now order).2) :
    Outcome host bot s r now e (serve host bot s bridge r now e) := by
  have hserved : serve host bot s bridge r now e =
      (Response.ofJson 200 (perform host bot s now order).1,
        (perform host bot s now order).2) := by
    simp [serve, hacts, horder]
  rw [hserved]
  exact .done hdone

end

theorem serve_attack (text : String) :
    Outcome host bot s r now (.attack text) (serve host bot s bridge r now (.attack text)) := by
  cases hid : PlayerId.parse? text with
  | none =>
      have horder : orderOf bot r (.attack text) = .error .invalidId := by
        simp [orderOf, playerOf, hid, Except.map]
      exact .of_malformed rfl horder hid rfl
  | some id =>
      have horder : orderOf bot r (.attack text) = .ok (.attack id) := by
        simp [orderOf, playerOf, hid, Except.map]
      exact .of_order rfl horder (.attack hid)

theorem serve_control (name : String) :
    Outcome host bot s r now (.control name) (serve host bot s bridge r now (.control name)) := by
  cases haxis : Axis.ofName? name with
  | none =>
      have horder : orderOf bot r (.control name) = .error .unknownControl := by
        simp [orderOf, haxis]
      exact .of_malformed rfl horder (.inl (Axis.ofName?_eq_none_iff.mp haxis)) rfl
  | some axis =>
      cases hbody : r.duration? with
      | none =>
          have horder : orderOf bot r (.control name) = .error .badDuration := by
            simp [orderOf, haxis, hbody]
          exact .of_malformed rfl horder (.inr (.inl hbody)) rfl
      | some n =>
          by_cases hn : 0 < n
          · have horder : orderOf bot r (.control name) = .ok (.hold axis n) := by
              simp [orderOf, haxis, hbody, hn]
            obtain rfl := Axis.ofName?_eq_some_iff.mp haxis
            exact .of_order rfl horder (.hold hbody hn)
          · have horder : orderOf bot r (.control name) = .error .badDuration := by
              simp [orderOf, haxis, hbody, hn]
            exact .of_malformed rfl horder (.inr (.inr ⟨n, hbody, by omega⟩)) rfl

theorem serve_look :
    Outcome host bot s r now .look (serve host bot s bridge r now .look) := by
  rcases hbody : r.angles? with _ | ⟨yaw, pitch⟩
  · have horder : orderOf bot r .look = .error .badHeading := by
      simp [orderOf, hbody]
    exact .of_malformed rfl horder (.inl hbody) rfl
  · by_cases hmissing : yaw = none ∨ pitch = none
    · have horder : orderOf bot r .look = .error .badHeading := by
        rcases hmissing with rfl | rfl <;> simp [orderOf, hbody]
      exact .of_malformed rfl horder (.inr ⟨_, hbody, hmissing⟩) rfl
    · push Not at hmissing
      obtain ⟨yaw, rfl⟩ := Option.ne_none_iff_exists'.mp hmissing.1
      obtain ⟨pitch, rfl⟩ := Option.ne_none_iff_exists'.mp hmissing.2
      have horder : orderOf bot r .look = .ok (.look ⟨yaw, pitch⟩) := by
        simp [orderOf, hbody]
      exact .of_order rfl horder (.look hbody)

theorem serve_lookAt (text : String) :
    Outcome host bot s r now (.lookAt text) (serve host bot s bridge r now (.lookAt text)) := by
  cases hid : PlayerId.parse? text with
  | none =>
      have horder : orderOf bot r (.lookAt text) = .error .invalidId := by
        simp [orderOf, playerOf, hid, bind, Except.bind]
      exact .of_malformed rfl horder hid rfl
  | some id =>
      cases hlocated : (bot.sight.player? id).bind (·.position) with
      | none =>
          have horder : orderOf bot r (.lookAt text) = .error .notLocated := by
            simp [orderOf, playerOf, hid, hlocated, bind, Except.bind]
          exact .of_unlocated rfl horder ⟨id, hid, Option.bind_eq_none_iff.mp hlocated⟩ rfl
      | some position =>
          have horder : orderOf bot r (.lookAt text) =
              .ok (.lookAt id (position.add ⟨0, 0.9, 0⟩)) := by
            simp [orderOf, playerOf, hid, hlocated, raise_half_height, bind, Except.bind]
          obtain ⟨b, hplayer, hposition⟩ := Option.bind_eq_some_iff.mp hlocated
          exact .of_order rfl horder (.lookAt hid hplayer hposition)

theorem serve_chat :
    Outcome host bot s r now .chat (serve host bot s bridge r now .chat) := by
  cases hbody : r.message? with
  | none =>
      have horder : orderOf bot r .chat = .error .noMessage := by
        simp [orderOf, hbody]
      exact .of_malformed rfl horder (.inl hbody) rfl
  | some message =>
      by_cases hblank : (Text.trim message).isEmpty = true
      · have horder : orderOf bot r .chat = .error .noMessage := by
          simp only [orderOf, hbody, hblank, if_true]
        exact .of_malformed rfl horder (.inr ⟨message, hbody, Text.isEmpty_trim_iff.mp hblank⟩) rfl
      · have horder : orderOf bot r .chat = .ok (.chat message) := by
          simp only [orderOf, hbody, if_neg hblank]
        rw [Text.isEmpty_trim_iff] at hblank
        push Not at hblank
        exact .of_order rfl horder (.chat hbody (by simpa using hblank))

/-- A request to act is denied or done. -/
theorem serve_acts {e : Endpoint} (hacts : e.reads = false) :
    Outcome host bot s r now e (serve host bot s bridge r now e) := by
  cases e with
  | attack text => exact serve_attack host bot s bridge r now text
  | control name => exact serve_control host bot s bridge r now name
  | look => exact serve_look host bot s bridge r now
  | lookAt text => exact serve_lookAt host bot s bridge r now text
  | chat => exact serve_chat host bot s bridge r now
  | health | status | players | player | nearest | sounds | combat | bridge => cases hacts

theorem serve_reads {e : Endpoint} (hreads : e.reads = true) :
    (serve host bot s bridge r now e).2 = (bot, s) := by
  unfold serve
  rw [if_pos hreads]
  split <;> rfl

variable {host bot s r now}

/-- The status tells what became of a request to act. -/
theorem Outcome.status_iff {e : Endpoint} {served : Response × Bot Float × σ}
    (h : Outcome host bot s r now e served) :
    (served.1.status = 400 ↔ Malformed r e) ∧ (served.1.status = 404 ↔ Unlocated bot e) := by
  cases h with
  | malformed hwrong hstatus =>
      have hlocated : ¬Unlocated bot e := not_unlocated_of_malformed hwrong
      simp [Denial.response_status, hstatus, hwrong, hlocated]
  | unlocated hwrong hstatus =>
      have hfine : ¬Malformed r e := fun h => not_unlocated_of_malformed h hwrong
      simp [Denial.response_status, hstatus, hwrong, hfine]
  | @done document _ hdone =>
      rcases Response.ofJson_cases document with hwritten | hstatus
      · simp [hwritten, hdone.not_malformed, hdone.not_unlocated]
      · simp [hstatus, hdone.not_malformed, hdone.not_unlocated]

theorem Outcome.denied {e : Endpoint} {served : Response × Bot Float × σ}
    (h : Outcome host bot s r now e served) (hlow : 400 ≤ served.1.status)
    (hhigh : served.1.status < 500) : served.2 = (bot, s) := by
  cases h with
  | malformed | unlocated => rfl
  | @done document _ hdone =>
      rcases Response.ofJson_cases document with hwritten | hstatus
      · simp [hwritten] at hlow
      · simp [hstatus] at hhigh

theorem Outcome.granted {e : Endpoint} {served : Response × Bot Float × σ}
    (h : Outcome host bot s r now e served) (hfine : ¬Malformed r e)
    (hlocated : ¬Unlocated bot e) : ∃ document,
      Done host bot s r now e document served.2 ∧ served.1 = Response.ofJson 200 document := by
  cases h with
  | malformed hwrong => exact absurd hwrong hfine
  | unlocated hwrong => exact absurd hwrong hlocated
  | done hdone => exact ⟨_, hdone, rfl⟩

theorem Outcome.other_expiry {name : String} {served : Response × Bot Float × σ}
    (h : Outcome host bot s r now (.control name) served) {other : Axis}
    (hother : other.name ≠ name) :
    served.2.1.controls.expiry other = bot.controls.expiry other := by
  cases h with
  | malformed | unlocated => rfl
  | done hdone =>
      cases hdone with
      | hold =>
          simp only [Bot.hold, Controls.Timer.activate, Controls.Timer.expiry_setExpiry]
          rw [if_neg (fun h => hother (congrArg Axis.name h))]

/-! ## All requests -/

variable (host bot s r now)

/-- A request reaches an endpoint and is answered there, or is refused and changes nothing. -/
theorem answer_cases :
    (∃ e, route r.method r.path = .endpoint e ∧
      (answer host bot s bridge r now).1.status = (serve host bot s bridge r now e).1.status ∧
      (answer host bot s bridge r now).2 = (serve host bot s bridge r now e).2) ∨
    ((answer host bot s bridge r now).1.status ≠ 200 ∧
      (answer host bot s bridge r now).2 = (bot, s)) := by
  unfold answer
  cases hroute : route r.method r.path with
  | endpoint e =>
      refine .inl ⟨e, rfl, ?_, rfl⟩
      dsimp only
      split <;> rfl
  | stream | notFound | methodNotAllowed | invalidMethod =>
      refine .inr ⟨?_, rfl⟩
      dsimp only
      split <;> simp [Response.headerOnly]

theorem answer_outcome {e : Endpoint} (hpost : r.method = "POST")
    (hpath : Endpoint.ofPath? r.path = some e) (hacts : e.reads = false) :
    Outcome host bot s r now e (answer host bot s bridge r now) := by
  have hserved : answer host bot s bridge r now = serve host bot s bridge r now e := by
    unfold answer
    rw [hpost, route_post_of_ofPath? hpath hacts]
    rfl
  rw [hserved]
  exact serve_acts host bot s bridge r now hacts

theorem answer_denied (hlow : 400 ≤ (answer host bot s bridge r now).1.status)
    (hhigh : (answer host bot s bridge r now).1.status < 500) :
    (answer host bot s bridge r now).2 = (bot, s) := by
  obtain ⟨e, -, hstatus, hafter⟩ | ⟨-, hafter⟩ := answer_cases host bot s bridge r now
  · rw [hstatus] at hlow hhigh
    rw [hafter]
    cases hreads : e.reads with
    | true => exact serve_reads host bot s bridge r now hreads
    | false => exact (serve_acts host bot s bridge r now hreads).denied hlow hhigh
  · exact hafter

theorem answer_read (hmethod : r.method = "GET" ∨ r.method = "HEAD") :
    (answer host bot s bridge r now).2 = (bot, s) := by
  obtain ⟨e, hroute, -, hafter⟩ | ⟨-, hafter⟩ := answer_cases host bot s bridge r now
  · have hreads : e.reads = true := by
      have hfits := (ofPath?_of_route hroute).2
      by_contra hacts
      rw [if_neg hacts] at hfits
      rcases hmethod with hmethod | hmethod <;> simp [hmethod] at hfits
    rw [hafter, serve_reads host bot s bridge r now hreads]
  · exact hafter

theorem answer_done (hpost : r.method = "POST")
    (hstatus : (answer host bot s bridge r now).1.status = 200) : ∃ e document,
      Endpoint.ofPath? r.path = some e ∧
        Done host bot s r now e document (answer host bot s bridge r now).2 ∧
        (answer host bot s bridge r now).1.body = .json document := by
  obtain ⟨e, hroute, -, -⟩ | ⟨hrefused, -⟩ := answer_cases host bot s bridge r now
  · obtain ⟨hpath, hfits⟩ := ofPath?_of_route hroute
    have hacts : e.reads = false := by
      by_contra hreads
      simp [hreads, hpost] at hfits
    have houtcome := answer_outcome host bot s bridge r now hpost hpath hacts
    obtain ⟨hmalformed, hunlocated⟩ := houtcome.status_iff
    rw [hstatus] at hmalformed hunlocated
    obtain ⟨document, hdone, hresponse⟩ :=
      houtcome.granted (by simp [← hmalformed]) (by simp [← hunlocated])
    refine ⟨e, document, hpath, hdone, ?_⟩
    rcases Response.ofJson_cases document with hwritten | hfailed
    · rw [hresponse, hwritten]
    · rw [← hresponse, hstatus] at hfailed
      cases hfailed
  · exact absurd hstatus hrefused

/-- Requests that read and requests that are denied change nothing. A request that is granted does
the one thing that its path and body say; which ones are denied depends only on the request and on
whom the bot can locate. -/
theorem answer_acts_once :
    let response := (answer host bot s bridge r now).1
    let after := (answer host bot s bridge r now).2
    (400 ≤ response.status → response.status < 500 → after = (bot, s)) ∧
      (r.method = "GET" ∨ r.method = "HEAD" → after = (bot, s)) ∧
      (r.method = "POST" → response.status = 200 → ∃ e document,
        Endpoint.ofPath? r.path = some e ∧ Done host bot s r now e document after ∧
          response.body = .json document) ∧
      (∀ e, r.method = "POST" → Endpoint.ofPath? r.path = some e → e.reads = false →
        (response.status = 400 ↔ Malformed r e) ∧ (response.status = 404 ↔ Unlocated bot e) ∧
          (¬Malformed r e → ¬Unlocated bot e → ∃ document,
            Done host bot s r now e document after ∧
              response = Response.ofJson 200 document)) ∧
      (∀ name other, r.method = "POST" → Endpoint.ofPath? r.path = some (.control name) →
        other.name ≠ name → after.1.controls.expiry other = bot.controls.expiry other) ∧
      (∀ x ∈ Endpoint.fixed, Endpoint.ofPath? x.1.toList = some x.2) ∧
      (∀ x ∈ Endpoint.parametric, ∀ text : List Char, text ≠ [] → '/' ∉ text →
        Endpoint.ofPath? (x.1.toList ++ text) = some (x.2 (String.ofList text))) := by
  intro response after
  refine ⟨answer_denied host bot s bridge r now, answer_read host bot s bridge r now,
    answer_done host bot s bridge r now, ?_, ?_, by decide,
    fun _ hx _ => Endpoint.ofPath?_append hx⟩
  · intro e hpost hpath hacts
    have houtcome := answer_outcome host bot s bridge r now hpost hpath hacts
    exact ⟨houtcome.status_iff.1, houtcome.status_iff.2, houtcome.granted⟩
  · intro name other hpost hpath hother
    exact (answer_outcome host bot s bridge r now hpost hpath rfl).other_expiry hother

end Api

end VoxelScout
