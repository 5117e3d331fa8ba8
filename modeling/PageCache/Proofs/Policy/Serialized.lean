import PageCache.Policy.Json
import PageCache.Proofs.Json.Records

/-! A policy survives its JSON form: it is read back as it was written, in whatever order the members
of objects stand and are visited. -/
namespace PageCache

open Json (Undoes Rearranged)

variable (visit : Json.Visit)

theorem Json.undoes_texts : Undoes (Decode.listOf Decode.text) texts := undoes_text.listOf

namespace Json

variable (key : Text) (t : Option Text)

theorem keys_consText?_sublist (rest : List (Text × Json)) :
    ((consText? key t rest).map (·.1)).Sublist (key :: rest.map (·.1)) := by
  cases t with
  | none => exact List.sublist_cons_self _ _
  | some t => exact .refl _

theorem lookup_consText?_self {rest : List (Text × Json)} (hrest : rest.lookup key = none) :
    (consText? key t rest).lookup key = t.map .str := by
  cases t with
  | none => exact hrest
  | some t => exact List.lookup_cons_self

theorem lookup_consText?_of_ne {key' : Text} (hkey : (key' == key) = false)
    (rest : List (Text × Json)) : (consText? key t rest).lookup key' = rest.lookup key' := by
  cases t with
  | none => rfl
  | some t => rw [consText?, List.lookup_cons, hkey]

end Json

theorem Group.undoes_readJson : Undoes (readJson visit) toJson := by
  intro g v h
  have hkeys : [("name" : Text), "enabled", "matchers", "redirect"].Nodup := by decide
  obtain ⟨fields, rfl, hfields⟩ := h.exists_fields
    (((((Json.keys_consText?_sublist "redirect" g.redirect []).cons_cons _).cons_cons _).cons_cons _).nodup hkeys)
  have hname := hfields.has "name" Json.undoes_text rfl
  have henabled := hfields.has "enabled" Json.undoes_flag rfl
  have hmatchers := hfields.has "matchers" Json.undoes_texts rfl
  have hredirect := hfields.has? "redirect" g.redirect Json.undoes_text nofun
    (Json.lookup_consText?_self "redirect" g.redirect rfl)
  have hrules : ∀ rule ∈ rules, rule.Admits fields := by
    simp only [rules, List.forall_mem_cons]
    exact ⟨hname.admits, henabled.admits, hmatchers.admits, hredirect.admits, nofun⟩
  rw [readJson, Json.readFields_obj visit "Group" hfields.nodup hrules]
  simp only [bind, Except.bind, hname.get, henabled.get, hmatchers.get, hredirect.get?]
  rfl

theorem CacheControl.undoes_ofJson : Undoes ofJson fun c => .str c.name := by
  intro c v h
  cases h
  cases c <;> rfl

theorem BrowserCache.undoes_readJson : Undoes (readJson visit) toJson := by
  intro b v h
  have hkeys : [("compression" : Text), "expires", "lifetime_seconds", "cache_control", "etag",
    "brand_header"].Nodup := by decide
  let control := b.cacheControl.map (·.name)
  let last : List (Text × Json) := [("etag", .bool b.etag), ("brand_header", .bool b.brandHeader)]
  obtain ⟨fields, rfl, hfields⟩ := h.exists_fields
    (((((Json.keys_consText?_sublist "cache_control" control last).cons_cons _).cons_cons _).cons_cons _).nodup
      hkeys)
  have hcompression := hfields.has "compression" Json.undoes_flag rfl
  have hexpires := hfields.has "expires" Json.undoes_flag rfl
  have hlifetime := hfields.has "lifetime_seconds" Json.undoes_natural rfl
  have hcontrol := hfields.has? "cache_control" b.cacheControl
    CacheControl.undoes_ofJson nofun
    ((Json.lookup_consText?_self "cache_control" control rfl).trans (Option.map_map ..))
  have hetag := hfields.has "etag" Json.undoes_flag
    (Json.lookup_consText?_of_ne "cache_control" control (by decide) last)
  have hbrand := hfields.has "brand_header" Json.undoes_flag
    (Json.lookup_consText?_of_ne "cache_control" control (by decide) last)
  have hrules : ∀ rule ∈ rules, rule.Admits fields := by
    simp only [rules, List.forall_mem_cons]
    exact ⟨hcompression.admits, hexpires.admits, hlifetime.admits, hcontrol.admits, hetag.admits,
      hbrand.admits, nofun⟩
  rw [readJson, Json.readFields_obj visit "BrowserCachePolicy" hfields.nodup hrules]
  simp only [bind, Except.bind, hcompression.get, hexpires.get, hlifetime.get, hcontrol.get?,
    hetag.get, hbrand.get]
  rfl

theorem Policy.undoes_readJson : Undoes (readJson visit) toJson := by
  intro p v h
  obtain ⟨fields, rfl, hfields⟩ := h.exists_fields (by
    change [("reject_cookies" : Text), "reject_uris", "reject_user_agents", "accept_files",
      "multi_tenant", "domain_mapped", "tenant_names", "trailing_slash", "device_groups",
      "referrer_groups", "browser_cache"].Nodup
    decide)
  have hgroups : Undoes (groups visit) fun gs => .arr (gs.map Group.toJson) :=
    (Group.undoes_readJson visit).listOf
  have hcookies := hfields.has "reject_cookies" Json.undoes_texts rfl
  have huris := hfields.has "reject_uris" Json.undoes_texts rfl
  have hagents := hfields.has "reject_user_agents" Json.undoes_texts rfl
  have hfiles := hfields.has "accept_files" Json.undoes_texts rfl
  have hmulti := hfields.has "multi_tenant" Json.undoes_flag rfl
  have hmapped := hfields.has "domain_mapped" Json.undoes_flag rfl
  have hnames := hfields.has "tenant_names" Json.undoes_texts rfl
  have hslash := hfields.has "trailing_slash" Json.undoes_flag rfl
  have hdevices := hfields.has "device_groups" hgroups rfl
  have hreferrers := hfields.has "referrer_groups" hgroups rfl
  have hbrowser := hfields.has "browser_cache" (BrowserCache.undoes_readJson visit) rfl
  have hrules : ∀ rule ∈ rules visit, rule.Admits fields := by
    simp only [rules, List.forall_mem_cons]
    exact ⟨hcookies.admits, huris.admits, hagents.admits, hfiles.admits, hmulti.admits,
      hmapped.admits, hnames.admits, hslash.admits, hdevices.admits, hreferrers.admits,
      hbrowser.admits, nofun⟩
  rw [readJson, Json.readFields_obj visit "PolicyModel" hfields.nodup hrules]
  simp only [bind, Except.bind, texts, hcookies.get, huris.get, hagents.get, hfiles.get, hmulti.get,
    hmapped.get, hnames.get, hslash.get, hdevices.get, hreferrers.get, hbrowser.get,
    TextSet.ofList_toList]
  rfl

namespace Policy

/-- A policy is read back from its JSON form, whatever the order of the members, and a redirect or a
cache-control policy that is absent has no member. -/
theorem readJson_of_rearranged (p : Policy) {v : Json} (h : Rearranged p.toJson v) :
    readJson visit v = .ok p ∧
      (∀ g ∈ p.deviceGroups ++ p.referrerGroups,
        g.toJson.get? "redirect" = none ↔ g.redirect = none) ∧
      (p.browserCache.toJson.get? "cache_control" = none ↔ p.browserCache.cacheControl = none) := by
  refine ⟨undoes_readJson visit p v h, fun g _ => ?_, ?_⟩
  · have hredirect : g.toJson.get? "redirect" = g.redirect.map .str :=
      Json.lookup_consText?_self "redirect" g.redirect rfl
    rw [hredirect, Option.map_eq_none_iff]
  · have hcontrol : p.browserCache.toJson.get? "cache_control" =
        (p.browserCache.cacheControl.map (·.name)).map .str :=
      Json.lookup_consText?_self "cache_control" _ rfl
    rw [hcontrol, Option.map_eq_none_iff, Option.map_eq_none_iff]

/-- A group with a redirect and one without, the longest lifetime, and members from the last one to
the first. -/
theorem readJson_of_rearranged_reversed :
    let p : Policy :=
      { Policy.default with
        multiTenant := true
        tenantNames := .ofList ["shop", "blog"]
        deviceGroups :=
          [{ name := "phone", enabled := true, matchers := ["iphone"]
             redirect := some "https://m.example.com" },
            { name := "tablet", enabled := false, matchers := [] }]
        browserCache := { lifetimeSeconds := 18446744073709551615, cacheControl := some .noCache } }
    let visit : Json.Visit := ⟨List.reverse, List.reverse_perm⟩
    let v : Json := match p.toJson with
      | .obj members => .obj members.reverse
      | v => v
    Rearranged p.toJson v ∧ readJson visit v = .ok p := by
  intro p visit v
  have hv : Rearranged p.toJson v :=
    .obj rfl (List.forall₂_same.2 fun v _ => .refl v) (List.reverse_perm _).symm
  exact ⟨hv, (readJson_of_rearranged visit p hv).1⟩

end Policy
end PageCache
