import Mathlib.Data.List.Infix
import Mathlib.Data.List.Nodup
import Mathlib.Data.List.TakeWhile
import VoxelScout.Api.Route

/-! # Where methods and paths lead

A path belongs to at most one endpoint, and the method decides whether the endpoint is
reached: endpoints that read are reached by methods that read, and those that act by the one
method that acts. The parameter at the end of a path reaches its endpoint as it is written.
-/

namespace VoxelScout

theorem Text.lowerAscii_eq_slash {c : Char} (h : Text.lowerAscii c = '/') : c = '/' := by
  have hletters : ∀ n < 91, 65 ≤ n → Char.ofNat (n + 32) ≠ '/' := by decide
  unfold Text.lowerAscii at h
  split at h
  next hcapital =>
    simp only [Bool.and_eq_true, decide_eq_true_eq, Char.le_def, UInt32.le_iff_toNat_le]
      at hcapital
    exact absurd h (hletters c.toNat (Nat.lt_succ_of_le hcapital.2) hcapital.1)
  next => exact h

namespace Api

namespace Endpoint

/-! ## Parameters -/

/-- Behind the start of a path, a text without slashes is compared in lower case. -/
theorem comparable_append {start text : List Char} (hlower : start.map Text.lowerAscii = start)
    (hlong : 1 < start.length) (hne : text ≠ []) (hslash : '/' ∉ text) :
    comparable (start ++ text) = start ++ text.map Text.lowerAscii := by
  have hlength : ¬(start ++ text.map Text.lowerAscii).length ≤ 1 := by
    rw [List.length_append]
    omega
  obtain ⟨front, last, rfl⟩ := (List.eq_nil_or_concat' text).resolve_left hne
  have hlast : (Text.lowerAscii last == '/') = false := by
    rw [beq_eq_false_iff_ne]
    exact fun h => hslash (by simp [Text.lowerAscii_eq_slash h])
  unfold comparable
  rw [List.map_append, hlower]
  simp only [hlength, if_false]
  simp [hlast]

/-- The start of a path is that of one endpoint only. -/
theorem eq_of_isPrefixOf {x y : String × (String → Endpoint)} (hx : x ∈ parametric)
    (hy : y ∈ parametric) {rest : List Char}
    (h : y.1.toList.isPrefixOf (x.1.toList ++ rest) = true) : y = x := by
  have hapart : ∀ x ∈ parametric, ∀ y ∈ parametric,
      (x.1.toList.isPrefixOf y.1.toList || y.1.toList.isPrefixOf x.1.toList) = true →
        y.1 = x.1 := by
    decide
  have hnames : (parametric.map (·.1)).Nodup := by decide
  apply List.inj_on_of_nodup_map hnames hy hx
  apply hapart x hx y hy
  rw [List.isPrefixOf_iff_prefix] at h
  simp only [Bool.or_eq_true, List.isPrefixOf_iff_prefix]
  exact List.prefix_or_prefix_of_prefix (List.prefix_append _ _) h

/-- No fixed path has as many slashes as one with a parameter. -/
theorem find?_fixed_eq_none {x : String × (String → Endpoint)} (hx : x ∈ parametric)
    (rest : List Char) : fixed.find? (fun y => y.1.toList == x.1.toList ++ rest) = none := by
  have hmany : ∀ x ∈ parametric, x.1.toList.count '/' = 3 := by decide
  have hfew : ∀ y ∈ fixed, y.1.toList.count '/' ≤ 2 := by decide
  rw [List.find?_eq_none]
  intro y hy heq
  have hcount := congrArg (List.count '/') (beq_iff_eq.mp heq)
  rw [List.count_append, hmany x hx] at hcount
  have := hfew y hy
  omega

theorem isParameter_map_lowerAscii {text : List Char} (hne : text ≠ []) (hslash : '/' ∉ text) :
    (!(text.map Text.lowerAscii).isEmpty && !(text.map Text.lowerAscii).contains '/') = true := by
  have hslash' : '/' ∉ text.map Text.lowerAscii := by
    intro hmem
    obtain ⟨c, hc, hlowered⟩ := List.mem_map.mp hmem
    exact hslash (Text.lowerAscii_eq_slash hlowered ▸ hc)
  simpa [hne] using hslash'

/-- The parameter of a path reaches its endpoint as it is written. -/
theorem ofPath?_append {x : String × (String → Endpoint)} (hx : x ∈ parametric)
    {text : List Char} (hne : text ≠ []) (hslash : '/' ∉ text) :
    ofPath? (x.1.toList ++ text) = some (x.2 (String.ofList text)) := by
  have hstarts : ∀ x ∈ parametric, x.1.toList.map Text.lowerAscii = x.1.toList ∧
      1 < x.1.toList.length := by decide
  obtain ⟨hlower, hlong⟩ := hstarts x hx
  have hcompared := comparable_append hlower hlong hne hslash
  have hparameter := isParameter_map_lowerAscii hne hslash
  have hfixed := find?_fixed_eq_none hx (text.map Text.lowerAscii)
  have hwhole : text.takeWhile (· != '/') = text := by
    rw [List.takeWhile_eq_self_iff]
    intro c hc
    rw [bne_iff_ne]
    rintro rfl
    exact hslash hc
  generalize text.map Text.lowerAscii = rest at hcompared hparameter hfixed
  simp only [ofPath?, hcompared, hfixed]
  obtain ⟨before, after, hsplit, hfirst⟩ := List.eq_append_cons_of_mem hx
  rw [List.findSome?_eq_some_iff]
  refine ⟨before, x, after, hsplit, ?_, ?_⟩
  · have hprefix : x.1.toList.isPrefixOf (x.1.toList ++ rest) = true :=
      List.isPrefixOf_iff_prefix.mpr (List.prefix_append _ _)
    rw [← String.length_toList, List.drop_left, List.drop_left, Bool.and_assoc, hprefix,
      hparameter, hwhole]
    rfl
  · intro y hy
    have hstart : y.1.toList.isPrefixOf (x.1.toList ++ rest) = false := by
      rw [← Bool.not_eq_true]
      intro hstart
      have hmem : y ∈ parametric := hsplit ▸ List.mem_append_left _ hy
      exact hfirst (eq_of_isPrefixOf hx hmem hstart ▸ hy)
    rw [hstart]
    rfl

/-! ## Endpoints and streams -/

/-- The path of an endpoint is a fixed one, or begins as that of an endpoint with a
parameter. -/
theorem comparable_of_ofPath? {path : List Char} {e : Endpoint} (h : ofPath? path = some e) :
    (∃ x ∈ fixed, comparable path = x.1.toList) ∨
      ∃ x ∈ parametric, x.1.toList <+: comparable path := by
  cases hfixed : fixed.find? fun x => x.1.toList == comparable path with
  | some x =>
      have hpath := List.find?_some hfixed
      rw [beq_iff_eq] at hpath
      exact .inl ⟨x, List.mem_of_find?_eq_some hfixed, hpath.symm⟩
  | none =>
      simp only [ofPath?, hfixed] at h
      obtain ⟨x, hx, hsome⟩ := List.exists_of_findSome?_eq_some h
      split at hsome
      next hstart =>
        simp only [Bool.and_eq_true] at hstart
        exact .inr ⟨x, hx, List.isPrefixOf_iff_prefix.mp hstart.1.1⟩
      next => cases hsome

/-- No endpoint lies where streams are. -/
theorem not_stream_of_ofPath? {path : List Char} {e : Endpoint} (h : ofPath? path = some e) :
    "/ws".toList.isPrefixOf (comparable path) = false := by
  have hfixed : ∀ x ∈ fixed, "/ws".toList.isPrefixOf x.1.toList = false := by decide
  have hparametric : ∀ x ∈ parametric, "/ws".toList.length ≤ x.1.toList.length ∧
      "/ws".toList.isPrefixOf x.1.toList = false := by decide
  rcases comparable_of_ofPath? h with ⟨x, hx, hpath⟩ | ⟨x, hx, hstart⟩
  · rw [hpath]
    exact hfixed x hx
  · obtain ⟨hlength, hdiffers⟩ := hparametric x hx
    rw [← Bool.not_eq_true, List.isPrefixOf_iff_prefix] at hdiffers ⊢
    exact fun hstream => hdiffers (List.prefix_of_prefix_length_le hstream hstart hlength)

end Endpoint

/-! ## Methods -/

/-- A request that reaches an endpoint has its path, and a method that fits it. -/
theorem ofPath?_of_route {method : String} {path : List Char} {e : Endpoint}
    (h : route method path = .endpoint e) : Endpoint.ofPath? path = some e ∧
      if e.reads then method = "GET" ∨ method = "HEAD" else method = "POST" := by
  unfold route at h
  split at h
  · cases h
  split at h
  · cases h
  cases hpath : Endpoint.ofPath? path with
  | none => simp [hpath] at h
  | some e' =>
      rw [hpath] at h
      by_cases hfits : (if e'.reads then method == "GET" || method == "HEAD"
          else method == "POST") = true
      · simp only [hfits, if_true, Route.endpoint.injEq] at h
        subst h
        refine ⟨rfl, ?_⟩
        cases hreads : e'.reads <;> simpa [hreads] using hfits
      · simp [hfits] at h

/-- The endpoints that act are reached by the method that acts. -/
theorem route_post_of_ofPath? {path : List Char} {e : Endpoint}
    (h : Endpoint.ofPath? path = some e) (hacts : e.reads = false) :
    route "POST" path = .endpoint e := by
  have hknown : methods.contains "POST" = true := by decide
  unfold route
  rw [hknown, Endpoint.not_stream_of_ofPath? h, h]
  simp [hacts]

end Api

end VoxelScout
