import ClusterRegistrar.Listing.Basic
import ClusterRegistrar.Proofs.GeneratedSecret.Tree
import ClusterRegistrar.Proofs.Manifest.Rearrangement
import ClusterRegistrar.Proofs.Text.Lines
import ClusterRegistrar.Proofs.Yaml.Stream

/-! YAML listings are read back. What is printed is a stream of documents, cut into lines at its line
feeds, and a reader takes each document for the secret that it stands for. A key on one line has to be
short where it is written, and a key of many escapes is not: a reader refuses the stream that holds one. -/
namespace ClusterRegistrar

namespace GeneratedSecret

/-- Labels and data under keys that a reader finds: a key that is written on one line takes no more than
1024 characters there. -/
structure KeysFit (g : GeneratedSecret) : Prop where
  labels : ∀ entries, g.labels.entries? = some entries → ∀ key v, (.str key, v) ∈ entries → Yaml.KeyFits key
  data : ∀ part ∈ g.data, Yaml.KeyFits part.1

theorem keysFit_of_texts {g : GeneratedSecret} {labels : List (Text × Text)}
    (hlabels : g.labels.entries? = some (.ofTexts labels)) (hkeys : ∀ label ∈ labels, Yaml.KeyFits label.1)
    (hdata : ∀ part ∈ g.data, Yaml.KeyFits part.1) : g.KeysFit := by
  refine ⟨fun entries hentries key v hmem => ?_, hdata⟩
  rw [hlabels] at hentries
  cases hentries
  obtain ⟨label, hlabel, hentry⟩ := List.mem_map.mp hmem
  cases hentry
  exact hkeys label hlabel

structure IsReadAs (g : GeneratedSecret) (s : SourceSecret) : Prop where
  name : s.name = g.name
  space : s.space = g.space
  type : s.type = .null
  labels : s.labels.entries? = g.labels.entries?
  data : s.data.entries? = some g.writtenData

theorem entries?_orElse_empty {v : Value} {fields : Entries} (h : v.entries? = some fields) :
    (v.orElse .empty).entries? = some fields := by
  unfold Value.orElse
  rw [Value.truthy_of_entries? h]
  cases fields with
  | nil => rfl
  | cons entry rest => exact h

variable {g : GeneratedSecret} {name space : Text} {labels : List (Text × Text)} {v : Value}

theorem entries?_of_labelTree (h : v.Shows (labelTree labels)) : v.entries? = some (.ofTexts labels) := by
  obtain ⟨fields, hfields, hshow⟩ := h.exists_fields
  rw [hfields, hshow.eq_of_texts]
  rfl

theorem entries?_of_dataTree (h : v.Shows (dataTree g.data)) : v.entries? = some g.writtenData := by
  obtain ⟨fields, hfields, hshow⟩ := h.exists_fields
  rw [hfields, hshow.eq_of_texts]
  rfl

theorem exists_metadata (h : v.Shows (metadataTree name space labels)) :
    ∃ metadata, v.entries? = some metadata ∧ metadata.field "name" = .str name ∧
      metadata.field? "namespace" = some (.str space) ∧
      (metadata.field "labels").entries? = some (.ofTexts labels) := by
  obtain ⟨metadata, hmetadata, hshow⟩ := h.exists_fields
  obtain ⟨marks, hmarks, hmarksShows⟩ := hshow.exists_field? (t := "labels") rfl
  refine ⟨metadata, hmetadata, Entries.field_of_field? (hshow.field?_of_text rfl),
    hshow.field?_of_text rfl, ?_⟩
  rw [Entries.field_of_field? hmarks]
  exact entries?_of_labelTree hmarksShows

theorem exists_isReadAs (hname : g.name = .str name) (hne : name ≠ []) (hspace : g.space = .str space)
    (hlabels : g.labels.entries? = some (.ofTexts labels)) (h : v.Shows (g.tree name space labels)) :
    ∃ s, (Manifest.ofResource v).result = .ok (some (.secret s)) ∧ g.IsReadAs s := by
  obtain ⟨fields, hfields, hshow⟩ := h.exists_fields
  have hversion : fields.field "apiVersion" = .str apiVersion :=
    Entries.field_of_field? (hshow.field?_of_text rfl)
  have hkind : fields.field "kind" = .str kind := Entries.field_of_field? (hshow.field?_of_text rfl)
  have htype : fields.field "type" = .null := Entries.field_of_missing (hshow.field?_eq_none rfl)
  have hannounces : Manifest.Announces .secret (fields.field "kind") (fields.field "apiVersion") := by
    rw [hkind, hversion]
    exact .secret
  obtain ⟨head, hhead, hheadShows⟩ := hshow.exists_field? (t := "metadata") rfl
  obtain ⟨body, hbody, hbodyShows⟩ := hshow.exists_field? (t := "data") rfl
  rw [← Entries.field_of_field? hhead] at hheadShows
  rw [← Entries.field_of_field? hbody] at hbodyShows
  obtain ⟨metadata, hmetadata, hnameField, hspaceField, hmarks⟩ := exists_metadata hheadShows
  have hnonempty : (metadata.field "name").truthy = true := by
    rw [hnameField]
    exact decide_eq_true hne
  have hheader := Manifest.header_of_metadata hfields hannounces hmetadata hnonempty
  refine ⟨⟨metadata.field "name", (metadata.field? "namespace").getD "default", fields.field "type",
    (metadata.field "labels").orElse .empty, (fields.field "data").orElse .empty⟩, ?_, ?_⟩
  · rw [Manifest.result_ofResource_of_announces hfields hannounces, hheader]
    rfl
  · refine ⟨hnameField.trans hname.symm, ?_, htype, (entries?_orElse_empty hmarks).trans hlabels.symm,
      entries?_orElse_empty (entries?_of_dataTree hbodyShows)⟩
    show (metadata.field? "namespace").getD "default" = g.space
    rw [hspaceField, hspace]
    rfl

structure IsEntriesOf (entries : List (Text × TextTree)) (g : GeneratedSecret) : Prop where
  document : g.toDocument = .ok (TextTree.map entries).value
  fits : (TextTree.map entries).Fits 3

theorem isEntriesOf_tree (hname : g.name = .str name) (hspace : g.space = .str space)
    (hlabels : g.labels.entries? = some (.ofTexts labels)) (hdistinct : (labels.map Prod.fst).Nodup)
    (hdata : (g.data.map Prod.fst).Nodup) : ∃ entries, g.tree name space labels = .map entries ∧
      IsEntriesOf entries g := by
  refine ⟨_, rfl, ?_, fits_tree hdistinct hdata name space⟩
  rw [toDocument_of_entries hlabels]
  exact congrArg Except.ok (value_tree hname hspace).symm

structure AreReadAs (entries : List (Text × TextTree)) (g : GeneratedSecret) : Prop extends
    IsEntriesOf entries g where
  keys : (TextTree.map entries).Everywhere Yaml.KeyFits fun _ => True
  reads : ∀ v : Value, v.Shows (.map entries) →
    ∃ s, (Manifest.ofResource v).result = .ok (some (.secret s)) ∧ g.IsReadAs s

theorem IsTextual.exists_entries (h : g.IsTextual) (hname : g.name.truthy = true) (hkeys : g.KeysFit) :
    ∃ entries, AreReadAs entries g := by
  obtain ⟨name, hg⟩ := h.name
  obtain ⟨space, hspace⟩ := h.space
  obtain ⟨labels, hlabels, hdistinct⟩ := h.labels
  obtain ⟨entries, htree, hentries⟩ := isEntriesOf_tree hg hspace hlabels hdistinct h.data
  have hne : name ≠ [] := by
    rw [hg] at hname
    exact of_decide_eq_true hname
  have heverywhere : (g.tree name space labels).Everywhere Yaml.KeyFits fun _ => True :=
    everywhere_tree (by decide +kernel) ⟨trivial, trivial⟩ trivial trivial
      (fun label hlabel => ⟨hkeys.labels _ hlabels _ _ (List.mem_map_of_mem hlabel), trivial⟩)
      fun part hpart => ⟨hkeys.data part hpart, trivial⟩
  rw [htree] at heverywhere
  refine ⟨entries, hentries, heverywhere, fun v hshows => ?_⟩
  rw [← htree] at hshows
  exact exists_isReadAs hg hne hspace hlabels hshows

end GeneratedSecret

namespace Listing

open GeneratedSecret (AreReadAs IsEntriesOf)

variable {docs : List (List (Text × TextTree))} {secrets : List GeneratedSecret}

theorem yamlText_of_entries (h : List.Forall₂ IsEntriesOf docs secrets) :
    yamlText secrets = .ok (docs.flatMap Yaml.documentText) := by
  have hentries : secrets.mapM entriesOf = .ok (docs.map TextTree.valueEntries) := by
    rw [Except.mapM_eq_ok, List.forall₂_map_right_iff]
    refine (h.imp fun entries g hentries => ?_).flip
    show entriesOf g = .ok (TextTree.valueEntries entries)
    rw [entriesOf, hentries.document]
    rfl
  have htexts : (docs.map TextTree.valueEntries).mapM Yaml.writeDocument =
      .ok (docs.map Yaml.documentText) := by
    rw [Except.mapM_eq_ok, List.forall₂_map_left_iff, List.forall₂_map_right_iff, List.forall₂_same]
    have hfits := forall_left_of_forall₂ h fun entries g hentries => hentries.fits
    exact fun entries hentries => Yaml.writeDocument_valueEntries (hfits entries hentries) (by decide)
  rw [yamlText, hentries, Except.ok_bind, Yaml.writeDocuments, htexts]
  rfl

theorem exists_print_yaml (h : List.Forall₂ IsEntriesOf docs secrets) :
    ∃ lines, yaml.print secrets = ⟨lines, none⟩ ∧
      Lines.join lines = .ofChars (docs.flatMap Yaml.documentText) := by
  have htext := yamlText_of_entries h
  cases h with
  | nil => exact ⟨[], rfl, rfl⟩
  | @cons entries g docs secrets _ _ =>
    obtain ⟨body, hbody, hwritten⟩ := Yaml.exists_documents_eq (List.cons_ne_nil entries docs)
    have hbreak : (Text.ofChars body).getLast? ≠ some Lines.lineFeed := by
      obtain ⟨c, hc, hblank⟩ := hwritten.ends
      rw [Text.ofChars, List.getLast?_map, hc]
      rintro ⟨⟩
      exact absurd hblank (by decide)
    have hdrop : Lines.dropFinalBreaks (.ofChars (body ++ ['\n'])) = .ofChars body := by
      rw [Text.ofChars_append]
      exact Lines.dropFinalBreaks_append hbreak
    refine ⟨Lines.split (.ofChars body), ?_, ?_⟩
    · rw [print, yamlLines, htext, hbody, Except.ok_bind, hdrop]
      rfl
    · rw [Lines.join_split, hbody, Text.ofChars_append]
      rfl

theorem not_mem_documents (docs : List (List (Text × TextTree))) : '\r' ∉ docs.flatMap Yaml.documentText :=
  fun hmem => absurd (Yaml.isOrdinary_documents docs _ hmem) (by decide)

theorem result_ofFile_documents (h : List.Forall₂ AreReadAs docs secrets) (path : Text) :
    ∃ sources, (Manifest.ofFile path (String.ofList (docs.flatMap Yaml.documentText)).toUTF8).result =
        .ok (sources.map .secret) ∧ List.Forall₂ GeneratedSecret.IsReadAs secrets sources := by
  have hfits := forall_left_of_forall₂ h fun entries g hentries => hentries.fits
  have hkeys := forall_left_of_forall₂ h fun entries g hentries => hentries.keys
  obtain ⟨values, hvalues, hshows⟩ := Yaml.exists_readAll hfits hkeys (by decide)
  have hdocuments : Manifest.documents path (String.ofList (docs.flatMap Yaml.documentText)).toUTF8 =
      .ok values := by
    rw [Manifest.documents_of_chars (not_mem_documents docs), hvalues]
  obtain ⟨sources, hsources, hread⟩ : ∃ sources, List.Forall₂ (fun v s =>
      (Manifest.ofResource v).result = .ok (some (.secret s))) values sources ∧
      List.Forall₂ GeneratedSecret.IsReadAs secrets sources := by
    clear hdocuments hvalues hkeys hfits
    induction h generalizing values with
    | nil =>
      cases hshows
      exact ⟨[], .nil, .nil⟩
    | cons hentries _ ih =>
      obtain _ | ⟨hshows, hrest⟩ := hshows
      obtain ⟨s, hs, hreads⟩ := hentries.reads _ hshows
      obtain ⟨sources, hsources, hread⟩ := ih _ hrest
      exact ⟨s :: sources, .cons hs hsources, .cons hreads hread⟩
  refine ⟨sources, ?_, hread⟩
  rw [Manifest.ofFile_of_documents hdocuments]
  exact Manifest.result_ofDocuments_of_manifests (List.forall₂_map_right_iff.mpr hsources) path

/-- Secrets with names that are not empty and with keys that fit are listed in YAML. The lines that are
printed are the whole stream, and a reader takes it for secrets with the same names, namespaces and labels,
with the texts of the bytes as their data, and without a type. -/
theorem yaml_listing_reads_back {secrets : List GeneratedSecret} (h : ∀ g ∈ secrets, g.IsTextual)
    (hnames : ∀ g ∈ secrets, g.name.truthy = true) (hkeys : ∀ g ∈ secrets, g.KeysFit) (path : Text) :
    ∃ text lines content sources, yamlText secrets = .ok text ∧ yaml.print secrets = ⟨lines, none⟩ ∧
      Lines.join lines = .ofChars text ∧ (Lines.join lines).utf8? = some content ∧
      (Manifest.ofFile path content).result = .ok (sources.map .secret) ∧
      List.Forall₂ GeneratedSecret.IsReadAs secrets sources := by
  obtain ⟨docs, hdocs⟩ := exists_forall₂ fun g hg => (h g hg).exists_entries (hnames g hg) (hkeys g hg)
  have hentries : List.Forall₂ IsEntriesOf docs secrets := hdocs.imp fun _ _ h => h.toIsEntriesOf
  obtain ⟨lines, hprint, hjoin⟩ := exists_print_yaml hentries
  obtain ⟨sources, hfile, hread⟩ := result_ofFile_documents hdocs path
  refine ⟨_, lines, _, sources, yamlText_of_entries hentries, hprint, hjoin, ?_, hfile, hread⟩
  rw [hjoin]
  exact Text.utf8?_eq_some.mpr ⟨_, rfl, rfl⟩

def misleadingSecrets : List GeneratedSecret := [
  { name := "null"
    space := "1:30"
    labels := .map (Entries.ofTexts [("yes", "2020-01-01"), ("=", "<<"), ("a: b #c", " \n"),
      ("\u00e9\x00", [.char (Char.ofNat 0x1f600)]), (List.replicate 200 (.char '\u00e9'), "~")])
    data := [("-", ⟨#[0, 255]⟩), ("", ⟨#[]⟩)] },
  { name := "...", space := "", labels := .map [], data := [] }]

theorem misleadingSecrets_read_back : (∀ g ∈ misleadingSecrets, g.IsTextual) ∧
    (∀ g ∈ misleadingSecrets, g.name.truthy = true) ∧ (∀ g ∈ misleadingSecrets, g.KeysFit) ∧
    ∃ text lines content sources, yamlText misleadingSecrets = .ok text ∧
      yaml.print misleadingSecrets = ⟨lines, none⟩ ∧ Lines.join lines = .ofChars text ∧
      (Lines.join lines).utf8? = some content ∧
      (Manifest.ofFile "in.yaml" content).result = .ok (sources.map .secret) ∧
      List.Forall₂ GeneratedSecret.IsReadAs misleadingSecrets sources := by
  have htextual : ∀ g ∈ misleadingSecrets, g.IsTextual := by
    simp only [misleadingSecrets, List.forall_mem_cons]
    exact ⟨⟨⟨_, rfl⟩, ⟨_, rfl⟩, ⟨_, rfl, by decide +kernel⟩, by decide⟩,
      ⟨⟨_, rfl⟩, ⟨_, rfl⟩, ⟨[], rfl, by decide⟩, by decide⟩, nofun⟩
  have hnames : ∀ g ∈ misleadingSecrets, g.name.truthy = true := by
    simp only [misleadingSecrets, List.forall_mem_cons]
    exact ⟨rfl, rfl, nofun⟩
  have hkeys : ∀ g ∈ misleadingSecrets, g.KeysFit := by
    simp only [misleadingSecrets, List.forall_mem_cons]
    exact ⟨GeneratedSecret.keysFit_of_texts rfl (by decide +kernel) (by decide +kernel),
      @GeneratedSecret.keysFit_of_texts _ [] rfl nofun nofun, nofun⟩
  exact ⟨htextual, hnames, hkeys, yaml_listing_reads_back htextual hnames hkeys "in.yaml"⟩

def escapedLabels : List (Text × Text) := [(List.replicate 103 (.char (Char.ofNat 0x1f600)), "")]

def escapedKeySecret : GeneratedSecret where
  name := "n"
  space := "s"
  labels := .map (Entries.ofTexts escapedLabels)
  data := []

def isMalformed (text : List Char) : Bool :=
  match Yaml.readAll text with
  | .error (.malformed _) => true
  | _ => false

theorem result_ofFile_of_isMalformed {text : List Char} (h : isMalformed text = true) (hreturn : '\r' ∉ text)
    (path : Text) : (Manifest.ofFile path (String.ofList text).toUTF8).result =
      Failure.reject (.malformedFile path) := by
  rw [Manifest.ofFile, Run.result_bind, Run.result_ofExcept, Manifest.documents_of_chars hreturn]
  unfold isMalformed at h
  split at h
  · next hread =>
    rw [hread]
    rfl
  · cases h

theorem escapedKeySecret_refused : escapedKeySecret.IsTextual ∧ escapedKeySecret.name.truthy = true ∧
    ∃ text lines content, yamlText [escapedKeySecret] = .ok text ∧
      yaml.print [escapedKeySecret] = ⟨lines, none⟩ ∧ Lines.join lines = .ofChars text ∧
      (Lines.join lines).utf8? = some content ∧
      (Manifest.ofFile "in.yaml" content).result = Failure.reject (.malformedFile "in.yaml") := by
  have hdistinct : (escapedLabels.map Prod.fst).Nodup := List.nodup_singleton _
  obtain ⟨entries, htree, hentries⟩ : ∃ entries,
      escapedKeySecret.tree "n" "s" escapedLabels = .map entries ∧ IsEntriesOf entries escapedKeySecret :=
    GeneratedSecret.isEntriesOf_tree rfl rfl rfl hdistinct List.nodup_nil
  have hdocs : List.Forall₂ IsEntriesOf [entries] [escapedKeySecret] := .cons hentries .nil
  obtain ⟨lines, hprint, hjoin⟩ := exists_print_yaml hdocs
  have hmalformed : isMalformed ([entries].flatMap Yaml.documentText) = true := by
    cases htree
    decide +kernel
  refine ⟨⟨⟨_, rfl⟩, ⟨_, rfl⟩, ⟨_, rfl, hdistinct⟩, List.nodup_nil⟩, rfl, _, lines, _,
    yamlText_of_entries hdocs, hprint, hjoin, hjoin ▸ Text.utf8?_eq_some.mpr ⟨_, rfl, rfl⟩,
    result_ofFile_of_isMalformed hmalformed (not_mem_documents [entries]) "in.yaml"⟩

end Listing
end ClusterRegistrar
