import Mathlib
import TreeShare.Proofs.Web.Segments
import TreeShare.Web.Directory

/-! Where requests about a peer go. The name of the peer is one segment of the path, and names that differ
lead to different places, unless a name has one of the three characters that are left out of URLs or is made
of dots. Main statement: `requests_by_name`. -/
namespace TreeShare.Web

namespace Url

def resources : List String := ["addresses", "root", "key"]

theorem isLower_of_mem_resources {what : String} (h : what ∈ resources) :
    ∀ c ∈ what.toList, c.isLower = true := by
  have hall : ∀ w ∈ resources, ∀ c ∈ w.toList, c.isLower = true := by simp [resources]
  exact hall what h

/-- What a step and a resource put after the trunk of the base, which may have no segments. -/
def Step.ending (special isRoot : Bool) (what : String) : Step → List String
  | .stay => ["peers", what]
  | .back => if isRoot then [what] else ["", what]
  | .segment chars => ["peers", encoded (inSegmentSet special) chars, what]

theorem path_descend (u : Url) (name : String) {what : String} (hwhat : what ∈ resources) :
    (u.descend ["peers", name, what]).path =
      u.trunk ++ (stepOf name).ending (isSpecial u.scheme) u.trunk.isEmpty what := by
  have hpeers : ∀ c ∈ "peers".toList, c.isLower = true := by simp
  unfold descend
  simp only [List.foldl_cons, List.foldl_nil]
  rw [addSegment_of_isLower hpeers, addSegment_of_isLower (isLower_of_mem_resources hwhat), addSegment_eq]
  change parent ((stepOf name).onto _ (u.trunk ++ ["peers"])) ++ [what] = _
  have hword : parent (u.trunk ++ ["peers"]) = u.trunk ++ ["peers"] := parent_append (.inr (by decide))
  cases stepOf name with
  | stay =>
    simp only [Step.onto, Step.ending, hword, List.append_assoc]
    rfl
  | back =>
    simp only [Step.onto, Step.ending, hword, List.dropLast_concat]
    cases hroot : u.trunk with
    | nil => rfl
    | cons first rest =>
      rw [parent_append (.inl (List.cons_ne_nil _ _)), List.isEmpty_cons, List.append_assoc]
      rfl
  | segment chars =>
    simp only [Step.onto, Step.ending, hword]
    rw [parent_append (.inl (List.append_ne_nil_of_right_ne_nil _ (List.cons_ne_nil _ _))),
      List.append_assoc, List.append_assoc]
    rfl

theorem Step.ending_inj {special isRoot : Bool} {a b : Step} {what what' : String}
    (h : a.ending special isRoot what = b.ending special isRoot what') : a = b ∧ what = what' := by
  have hsegment {cs ds : List Char}
      (h : encoded (inSegmentSet special) cs = encoded (inSegmentSet special) ds) : cs = ds :=
    encoded_inj (inSegmentSet_percent special) h
  -- Steps of two kinds have endings of two lengths, or begin differently.
  cases a <;> cases b <;> cases isRoot <;> simp_all [Step.ending]
  all_goals exact hsegment h.1

theorem slash_notMem_ending {special isRoot : Bool} {what : String} (hwhat : what ∈ resources)
    (a : Step) : ∀ s ∈ a.ending special isRoot what, '/' ∉ s.toList := by
  have hwords : '/' ∉ "peers".toList ∧ '/' ∉ "".toList := by decide
  have hword : '/' ∉ what.toList := fun h =>
    absurd (isLower_of_mem_resources hwhat '/' h) (by decide)
  have hname (cs : List Char) : '/' ∉ (encoded (inSegmentSet special) cs).toList := by
    intro h
    rcases mem_encoded h with ⟨h, -⟩ | h
    · rw [inSegmentSet_slash] at h
      contradiction
    · revert h
      decide
  cases a <;> cases isRoot <;> simp_all [Step.ending]

theorem text_path_inj {u : Url} {p q : List String} :
    ({ u with path := p }).text = ({ u with path := q }).text ↔ pathText p = pathText q := by
  unfold text
  rw [String.append_left_inj, String.append_right_inj]

theorem target_path_inj {u : Url} {p q : List String} :
    ({ u with path := p }).target = ({ u with path := q }).target ↔ pathText p = pathText q := by
  unfold target
  rw [String.append_left_inj]

/-- Nothing in the segment ends it or makes it a step within the path. -/
structure IsSegment (special : Bool) (segment : String) : Prop where
  slash : '/' ∉ segment.toList
  query : '?' ∉ segment.toList
  fragment : '#' ∉ segment.toList
  backslash : special = true → '\\' ∉ segment.toList
  singleDot : isSingleDot segment = false
  doubleDot : isDoubleDot segment = false

theorem isSegment_encoded {special : Bool} {cs : List Char} (hone : cs ≠ ['.'])
    (htwo : cs ≠ ['.', '.']) : IsSegment special (encoded (inSegmentSet special) cs) := by
  have hmem {c : Char} (hset : inSegmentSet special c = true)
      (hother : c ∉ "%0123456789ABCDEF".toList) :
      c ∉ (encoded (inSegmentSet special) cs).toList := by
    intro h
    rcases mem_encoded h with ⟨h, -⟩ | h
    · exact Bool.false_ne_true (h.symm.trans hset)
    · exact hother h
  constructor
  · exact hmem (inSegmentSet_slash special) (by decide)
  · exact hmem (by simp [inSegmentSet, inPathSet]) (by decide)
  · exact hmem (by simp [inSegmentSet, inPathSet]) (by decide)
  · exact fun hspecial => hmem (by simp [inSegmentSet, hspecial]) (by decide)
  · exact Bool.eq_false_iff.mpr (mt isSingleDot_encoded_iff.mp hone)
  · exact Bool.eq_false_iff.mpr (mt isDoubleDot_encoded_iff.mp htwo)

end Url

namespace PeerServer
open Url

variable (s : PeerServer)

def place (name what : String) : Url := s.base.descend ["peers", name, what]

variable {s} {name other what what' : String}

theorem place_eq (hwhat : what ∈ resources) :
    s.place name what = { s.base with
      path := s.base.trunk ++
        (stepOf name).ending (isSpecial s.base.scheme) s.base.trunk.isEmpty what } :=
  congrArg (fun path => { s.base with path := path }) (path_descend s.base name hwhat)

theorem pathText_place_inj (hwhat : what ∈ resources) (hwhat' : what' ∈ resources) :
    pathText (s.place name what).path = pathText (s.place other what').path ↔
      stepOf name = stepOf other ∧ what = what' := by
  rw [place_eq hwhat, place_eq hwhat', pathText_append, pathText_append, String.append_right_inj]
  constructor
  · intro h
    exact Step.ending_inj (pathText_inj (slash_notMem_ending hwhat _) (slash_notMem_ending hwhat' _) h)
  · rintro ⟨hstep, rfl⟩
    rw [hstep]

theorem text_place_inj (hwhat : what ∈ resources) (hwhat' : what' ∈ resources) :
    (s.place name what).text = (s.place other what').text ↔ stepOf name = stepOf other ∧ what = what' :=
  text_path_inj.trans (pathText_place_inj hwhat hwhat')

theorem target_place_inj (hwhat : what ∈ resources) (hwhat' : what' ∈ resources) :
    (s.place name what).target = (s.place other what').target ↔
      stepOf name = stepOf other ∧ what = what' :=
  target_path_inj.trans (pathText_place_inj hwhat hwhat')

theorem plain_iff_segment (hwhat : what ∈ resources) :
    Plain name ↔ ∃ segment, IsSegment (isSpecial s.base.scheme) segment ∧
      decodedBytes (Utf8.encode segment) = Utf8.encode name ∧
      s.place name what = { s.base with path := s.base.trunk ++ ["peers", segment, what] } := by
  have hdecoded (cs : List Char) := decodedBytes_encoded
    (inSegmentSet_percent (isSpecial s.base.scheme)) cs
  constructor
  · intro hplain
    have hdots {dots : String} (h : name ≠ dots) : name.toList ≠ dots.toList := mt String.toList_inj.mp h
    refine ⟨_, isSegment_encoded (hdots hplain.2.1) (hdots hplain.2.2), ?_, ?_⟩
    · rw [hdecoded, String.ofList_toList]
    · rw [place_eq hwhat, stepOf_eq_segment_iff.mpr hplain]
      rfl
  · rintro ⟨segment, -, hname, hplace⟩
    rw [place_eq hwhat] at hplace
    have hending := List.append_cancel_left (congrArg Url.path hplace)
    rw [← stepOf_eq_segment_iff]
    cases hstep : stepOf name with
    | stay => simp [hstep, Step.ending] at hending
    | back =>
      rw [hstep, Step.ending] at hending
      split at hending <;> simp at hending
    | segment cs =>
      rw [hstep, Step.ending] at hending
      obtain rfl : encoded (inSegmentSet (isSpecial s.base.scheme)) cs = segment := by
        simpa using hending
      rw [hdecoded] at hname
      rw [← Utf8.encode_inj hname, String.toList_ofList]

theorem resource_congr {client : Client}
    (h : client.get (s.place name what) = s.client.get (s.place name what)) :
    ({ s with client := client }).resource name what = s.resource name what := by
  have hget : client.get (s.base.descend ["peers", name, what]) =
      s.client.get (s.base.descend ["peers", name, what]) := h
  unfold resource get
  dsimp only
  rw [hget]

theorem told_at_place (s : PeerServer) (name : String) (client : Client) :
    (client.get (s.place name "addresses") = s.client.get (s.place name "addresses") →
      ({ s with client := client }).addresses name = s.addresses name) ∧
    (client.get (s.place name "root") = s.client.get (s.place name "root") →
      ({ s with client := client }).root name = s.root name) ∧
    (client.get (s.place name "key") = s.client.get (s.place name "key") →
      ({ s with client := client }).key name = s.key name) := by
  refine ⟨fun h => ?_, fun h => ?_, fun h => ?_⟩
  · unfold addresses
    rw [resource_congr h]
  · unfold root
    rw [resource_congr h]
  · unfold key
    rw [resource_congr h]

/-- Requests about a peer go to its own place below the base and nowhere else. Nothing but the path of the
base changes, whatever the name is. The path goes on with exactly the three segments `peers`, the name and
the resource if and only if the name is plain, so two plain names never share a place. Any two names do so
exactly if they are one step: such as `ab` and a name that has a tab between these letters. -/
theorem requests_by_name (s : PeerServer) (name : String) :
    (∃ k ≤ 2, s.base.path = s.base.trunk ++ List.replicate k "") ∧
    (∀ client : Client,
      (client.get (s.place name "addresses") = s.client.get (s.place name "addresses") →
        ({ s with client := client }).addresses name = s.addresses name) ∧
      (client.get (s.place name "root") = s.client.get (s.place name "root") →
        ({ s with client := client }).root name = s.root name) ∧
      (client.get (s.place name "key") = s.client.get (s.place name "key") →
        ({ s with client := client }).key name = s.key name)) ∧
    ∀ what ∈ resources,
      s.place name what = { s.base with
        path := s.base.trunk ++
          (stepOf name).ending (isSpecial s.base.scheme) s.base.trunk.isEmpty what } ∧
      (Plain name ↔ ∃ segment, IsSegment (isSpecial s.base.scheme) segment ∧
        decodedBytes (Utf8.encode segment) = Utf8.encode name ∧
        s.place name what = { s.base with path := s.base.trunk ++ ["peers", segment, what] }) ∧
      ∀ other, ∀ what' ∈ resources,
        ((s.place name what).text = (s.place other what').text ↔
          stepOf name = stepOf other ∧ what = what') ∧
        ((s.place name what).target = (s.place other what').target ↔
          stepOf name = stepOf other ∧ what = what') ∧
        (Plain name → Plain other → name ≠ other →
          (s.place name what).text ≠ (s.place other what').text ∧
            (s.place name what).target ≠ (s.place other what').target) := by
  refine ⟨path_eq_trunk s.base, told_at_place s name, fun what hwhat => ?_⟩
  refine ⟨place_eq hwhat, plain_iff_segment hwhat, fun other what' hwhat' => ?_⟩
  refine ⟨text_place_inj hwhat hwhat', target_place_inj hwhat hwhat', fun hname hother hne => ?_⟩
  have hsteps : stepOf name ≠ stepOf other := by
    rw [stepOf_eq_segment_iff.mpr hname, stepOf_eq_segment_iff.mpr hother]
    exact fun h => hne (String.toList_inj.mp (Step.segment.inj h))
  exact ⟨mt (text_place_inj hwhat hwhat').mp fun h => hsteps h.1,
    mt (target_place_inj hwhat hwhat').mp fun h => hsteps h.1⟩

def loopback : Url :=
  { scheme := "http", user := "", host := some (.ip6 #v[0, 0, 0, 0, 0, 0, 0, 1]), port := none,
    path := ["dir"], query := none, fragment := none }

/-- It answers each request for a root with nothing, and refuses all others. -/
def rootless : PeerServer where
  base := loopback
  client := { get := fun u => if u.path.getLast? = some "root" then .ok ⟨204, []⟩ else .error false }

theorem connect_loopback : connect "http://[::1]/dir" rootless.client = .ok rootless := by
  have hparse : Url.parse "http://[::1]/dir" = .ok (.url loopback) := by cbv
  unfold connect
  rw [hparse]
  rfl

/-- A slash as a name, and a name that looks like the encoding of a slash. -/
theorem requests_by_name_of_slash :
    (rootless.place "/" "root").text = "http://[::1]/dir/peers/%2F/root" ∧
    (rootless.place "%2F" "root").text = "http://[::1]/dir/peers/%252F/root" ∧
    ({ rootless with client := ⟨fun _ => .ok ⟨204, []⟩⟩ } : PeerServer).root "/" = rootless.root "/" ∧
    (rootless.place "/" "root").text ≠ (rootless.place "%2F" "root").text ∧
    (rootless.place "/" "root").target ≠ (rootless.place "%2F" "root").target := by
  have hroot : "root" ∈ resources := by decide
  obtain ⟨-, htold, hplace⟩ := requests_by_name rootless "/"
  obtain ⟨-, -, hinj⟩ := hplace "root" hroot
  refine ⟨by cbv, by cbv, (htold ⟨fun _ => .ok ⟨204, []⟩⟩).2.1 (by cbv), ?_⟩
  have hslash : Plain "/" := by simp [Plain, isRemoved]
  have hspelled : Plain "%2F" := by simp [Plain, isRemoved]
  exact (hinj "%2F" "root" hroot).2.2 hslash hspelled (by decide)

/-- A tab is left out of the URL, and so are names of one dot and of two; dots with a tab between them take
the segment `peers` back. -/
theorem names_share_place :
    connect "http://[::1]/dir" rootless.client = .ok rootless ∧ "ab" ≠ "a\tb" ∧
      (rootless.place "ab" "root").text = "http://[::1]/dir/peers/ab/root" ∧
      (rootless.place "a\tb" "root").text = "http://[::1]/dir/peers/ab/root" ∧
      (rootless.place "." "root").text = "http://[::1]/dir/peers/root" ∧
      (rootless.place ".." "root").text = "http://[::1]/dir/peers/root" ∧
      (rootless.place ".\t." "root").text = "http://[::1]/dir//root" := by
  refine ⟨connect_loopback, by decide, ?_, ?_, ?_, ?_, ?_⟩ <;> cbv

end PeerServer
end TreeShare.Web
