import TrafficMeter.Source.Command
import TrafficMeter.Source.Stats

/-!
What the metrics are told of a poll. Every poll counts one request, whatever the upstream did. The
dump of an interface is judged by all that came of it; a statistics document is judged once it could
be read, before its section is looked for, and a document without one is the only case that tells.
-/

namespace TrafficMeter

def Polled.Truthful {α : Type} (source : String) (p : Polled α) : Prop :=
  p.requests.map (fun request => (request.source, request.verdict.name)) =
    [(source, if p.result.isOk then "success" else "error")]

section Verdicts

variable {α β : Type} {source : String}

theorem Verdict.name_of (result : Outcome α) :
    (Verdict.of result).name = if result.isOk then "success" else "error" := by
  cases result <;> rfl

theorem Outcome.isOk_within (activity : String) (result : Outcome α) :
    (Outcome.within activity result).isOk = result.isOk := by
  cases result <;> rfl

theorem Outcome.isOk_map (f : α → β) (result : Outcome α) : (result.map f).isOk = result.isOk := by
  cases result <;> rfl

theorem Polled.truthful_iff {p : Polled β} {judged : Outcome α}
    (h : p.requests = [⟨source, .of judged⟩]) :
    p.Truthful source ↔ p.result.isOk = judged.isOk := by
  unfold Polled.Truthful
  rw [h, List.map_singleton]
  dsimp only
  rw [Verdict.name_of]
  cases p.result.isOk <;> cases judged.isOk <;> simp

end Verdicts

namespace ProxyConfig

section Documents

variable {url : String} {stats? : Option StatsSection}

theorem readDocument_ok_iff {body : Option (List UInt8)} :
    readDocument url body = .ok stats? ↔ ∃ octets document, body = some octets ∧
      Json.readOctets? octets = some document ∧
      StatsSection.ofDocument? document = some stats? := by
  cases body with
  | none => simp [readDocument]
  | some octets =>
    unfold readDocument
    dsimp only
    cases hread : Json.readOctets? octets with
    | none => simp [hread]
    | some document => cases hsection : StatsSection.ofDocument? document <;> simp [hread, hsection]

theorem statsDocument_ok_iff {response : Except HttpFault Http.Response} :
    statsDocument url response = .ok stats? ↔ ∃ answer, response = .ok answer ∧
      answer.isSuccess = true ∧ readDocument url answer.body = .ok stats? := by
  cases response with
  | error fault => simp [statsDocument, Outcome.fail, Outcome.within]
  | ok answer =>
    unfold statsDocument
    dsimp only
    cases hsuccess : answer.isSuccess with
    | false => simp [hsuccess, Outcome.fail]
    | true =>
      cases hread : readDocument url answer.body <;>
        simp [hsuccess, hread, Outcome.fail, Outcome.within]

end Documents

/-- The upstream answered with a document, but its statistics section is missing. -/
def LacksSection (c : ProxyConfig) (transport : Http.Transport) : Prop :=
  ∃ answer octets document, Http.get transport c.statsAddress = .ok answer ∧
    answer.isSuccess = true ∧ answer.body = some octets ∧
    Json.readOctets? octets = some document ∧
    StatsSection.ofDocument? document = some none

variable {c : ProxyConfig} {transport : Http.Transport}

theorem lacksSection_iff :
    c.LacksSection transport ↔
      statsDocument c.statsAddress (Http.get transport c.statsAddress) = .ok none := by
  simp only [LacksSection, statsDocument_ok_iff, readDocument_ok_iff, exists_and_left]

/-- How the call of that activity is told: as it ended, unless the document lacks the section. Then
it is told as a success, though it fails. -/
structure Told {α : Type} (c : ProxyConfig) (transport : Http.Transport) (activity : String)
    (p : Polled α) : Prop where
  truthful : p.Truthful "proxy" ↔ ¬ c.LacksSection transport
  lacking : c.LacksSection transport → p.requests = [⟨"proxy", .success⟩] ∧
    p.result = .error ⟨[activity], .source (.missingSection "stats")⟩

theorem fetchStats_cases (c : ProxyConfig) (transport : Http.Transport) :
    (¬ c.LacksSection transport ∧ (c.fetchStats transport).Truthful "proxy") ∨
    (c.LacksSection transport ∧ (c.fetchStats transport).requests = [⟨"proxy", .success⟩] ∧
      (c.fetchStats transport).result = .error (.of (.source (.missingSection "stats")))) := by
  rw [lacksSection_iff, Polled.truthful_iff rfl]
  unfold fetchStats
  dsimp only
  cases statsDocument c.statsAddress (Http.get transport c.statsAddress) with
  | error failure => exact Or.inl ⟨nofun, rfl⟩
  | ok stats? =>
    cases stats? with
    | none => exact Or.inr ⟨rfl, rfl, rfl⟩
    | some stats => exact Or.inl ⟨nofun, rfl⟩

theorem told_of_fetchStats {α : Type} {p : Polled α} {activity : String} (read : StatsSection → α)
    (hrequests : p.requests = (c.fetchStats transport).requests)
    (hresult : p.result = (Outcome.within activity (c.fetchStats transport).result).map read) :
    c.Told transport activity p := by
  have hok : p.result.isOk = (c.fetchStats transport).result.isOk := by
    rw [hresult, Outcome.isOk_map, Outcome.isOk_within]
  have htold : p.Truthful "proxy" ↔ (c.fetchStats transport).Truthful "proxy" := by
    unfold Polled.Truthful
    rw [hrequests, hok]
  rcases c.fetchStats_cases transport with ⟨hsection, hfetched⟩ | ⟨hlacks, hr, he⟩
  · exact ⟨iff_of_true (htold.mpr hfetched) hsection, fun hlacks => absurd hlacks hsection⟩
  · have hnot : ¬ (c.fetchStats transport).Truthful "proxy" := by
      unfold Polled.Truthful
      rw [hr, he]
      decide
    rw [hr] at hrequests
    rw [he] at hresult
    exact ⟨iff_of_false (mt htold.mp hnot) (not_not_intro hlacks), fun _ => ⟨hrequests, hresult⟩⟩

theorem pollUsers_told (c : ProxyConfig) (transport : Http.Transport) :
    c.Told transport "fetching user counters" (c.pollUsers transport) :=
  told_of_fetchStats StatsSection.userReadings rfl (by simp only [pollUsers, Polled.within])

theorem pollAggregate_told (c : ProxyConfig) (transport : Http.Transport) (tags : List String) :
    c.Told transport "fetching aggregate counters" (c.pollAggregate transport tags) :=
  told_of_fetchStats (·.sumTags tags) rfl (by simp only [pollAggregate, Polled.within])

end ProxyConfig

namespace PeersConfig

theorem poll_truthful (c : PeersConfig) (ended : CommandOutcome) :
    (c.poll ended).Truthful "wireguard" := by
  rw [Polled.truthful_iff rfl]
  exact Outcome.isOk_within _ _

end PeersConfig

/-- Every poll of peers counts one request, with the verdict on its own result. So does every poll
of a proxy but that of a document without the section. -/
theorem polls_told_as_they_end (peers : PeersConfig) (ended : CommandOutcome) (proxy : ProxyConfig)
    (transport : Http.Transport) (tags : List String) :
    (peers.poll ended).Truthful "wireguard" ∧
    proxy.Told transport "fetching user counters" (proxy.pollUsers transport) ∧
    proxy.Told transport "fetching aggregate counters" (proxy.pollAggregate transport tags) :=
  ⟨peers.poll_truthful ended, proxy.pollUsers_told transport, proxy.pollAggregate_told transport tags⟩

def localProxy : ProxyConfig := { statsUrl := "http://127.0.0.1:8080" }

def emptyDocument : Http.Transport := fun _ => .ok ⟨200, none, some [123, 125]⟩

theorem emptyDocument_lacksSection : localProxy.LacksSection emptyDocument := by
  have hread : (Json.readOctets? [123, 125]).bind StatsSection.ofDocument? = some none := by
    decide +kernel
  obtain ⟨document, hdocument, hsection⟩ := Option.bind_eq_some_iff.mp hread
  refine ⟨⟨200, none, some [123, 125]⟩, [123, 125], document, ?_, rfl, rfl, hdocument, hsection⟩
  have hurl : Http.urlFault? localProxy.statsAddress = none := by decide +kernel
  unfold Http.get
  rw [hurl]
  rfl

theorem polls_told_as_they_end_of_empty_document :
    localProxy.LacksSection emptyDocument ∧
    (({} : PeersConfig).poll (.killed "9 (SIGKILL)" [] [])).Truthful "wireguard" ∧
    (localProxy.pollUsers emptyDocument).requests = [⟨"proxy", .success⟩] ∧
    (localProxy.pollUsers emptyDocument).result =
      .error ⟨["fetching user counters"], .source (.missingSection "stats")⟩ := by
  obtain ⟨hpeers, husers, -⟩ :=
    polls_told_as_they_end {} (.killed "9 (SIGKILL)" [] []) localProxy emptyDocument []
  exact ⟨emptyDocument_lacksSection, hpeers, husers.lacking emptyDocument_lacksSection⟩

theorem failed_poll_told_as_success :
    ¬ (localProxy.pollUsers emptyDocument).Truthful "proxy" ∧
    ¬ (localProxy.pollAggregate emptyDocument ["in"]).Truthful "proxy" :=
  ⟨fun h => (localProxy.pollUsers_told emptyDocument).truthful.mp h emptyDocument_lacksSection,
    fun h => (localProxy.pollAggregate_told emptyDocument ["in"]).truthful.mp h
      emptyDocument_lacksSection⟩

end TrafficMeter
