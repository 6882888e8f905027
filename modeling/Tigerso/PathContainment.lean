import Tigerso.HttpConnection
import Tigerso.LexicalPath

/-!
# http/HttpConnection: the files that are served

The URL from its first slash on is put behind the directory of the service as it is.
-/

open LexicalPath HttpMessage

namespace PathContainment

def segment (name : Bytes) : Segment Bytes :=
  if name = [] ∨ name = literal "." then .stay
  else if name = literal ".." then .up
  else .down name

def segments (path : Bytes) : List (Segment Bytes) := (path.splitOn 47).map segment

/-- Where a path leads; the directory of a service without a name is the top. -/
def place (path : Bytes) : Place Bytes :=
  (if path = [] ∨ path.head? = some 47 then Place.top else Place.here).walk (segments path)

/-- What a URL puts behind the slash that follows the directory. -/
def asked (url : Bytes) : Bytes := (HttpConnection.filepath [] url).tail

/-- The file of a URL is the directory of the service or lies below it. -/
def Contained (root url : Bytes) : Prop :=
  (place root).Below (place (HttpConnection.filepath root url))

instance (root url : Bytes) : Decidable (Contained root url) :=
  inferInstanceAs (Decidable (Place.Below _ _))

theorem filepath_eq (root url : Bytes) :
    HttpConnection.filepath root url = root ++ 47 :: asked url := by
  rw [asked, HttpConnection.filepath, HttpConnection.filepath]
  split_ifs with long
  · cases path : url.dropWhile (· != 47) with
    | nil =>
      rw [path] at long
      cases long
    | cons b rest =>
      have first := @List.head_dropWhile_not _ (fun b => b != 47) url (by rw [path]; exact nofun)
      simp only [path, List.head_cons] at first
      have slash : b = 47 := by simpa using first
      rw [slash]
      rfl
  · exact List.append_assoc ..

theorem segments_append (front back : Bytes) :
    segments (front ++ 47 :: back) = segments front ++ segments back := by
  rw [segments, List.splitOn_append_cons_of_beq front back (beq_self_eq_true 47), List.map_append]
  rfl

theorem place_append (root rest : Bytes) :
    place (root ++ 47 :: rest) = (place root).follow (Place.here.walk (segments rest)) := by
  have begins : (root ++ 47 :: rest = [] ∨ (root ++ 47 :: rest).head? = some 47) ↔
      (root = [] ∨ root.head? = some 47) := by
    cases root with
    | nil => simp
    | cons b root => simp
  have one : place (root ++ 47 :: rest) = (place root).walk (segments rest) := by
    rw [place, place, segments_append, Place.walk, List.foldl_append]
    simp only [begins]
    rfl
  rw [one, Place.walk_eq_follow]

/-- The file of a URL stays below the directory of the service exactly when the URL comes down
again by the names of the levels that it leaves. -/
theorem contained_iff (root url : Bytes) :
    Contained root url ↔ (place root).Returns (Place.here.walk (segments (asked url))) := by
  rw [Contained, filepath_eq, place_append]
  exact Place.below_follow_iff

/-- Two levels up from the directory of the service, and down to another file. -/
theorem not_contained : ¬ Contained (literal "/var/www") (literal "/../../etc/passwd") := by
  decide

/-- A URL may leave the directory and come back. -/
example : Contained (literal "/var/www") (literal "/../www/a/index.html") := by decide

end PathContainment
