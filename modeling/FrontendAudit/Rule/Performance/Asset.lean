import FrontendAudit.Finding.Basic
import FrontendAudit.Number.Decimal

/-!
# Image assets and heavy dependencies

An image is too large beyond five hundred kilobytes, and two formats are not made for the web. A
package that is known to be heavy is reported when a manifest declares it.
-/

namespace FrontendAudit.Performance

open Number (Binary64)

/-- The extensions of images. -/
def imageExtensions : List String := [".png", ".jpg", ".jpeg", ".bmp", ".tiff", ".gif"]

/-- The extensions of images that browsers handle poorly. -/
def nonWebExtensions : List String := [".bmp", ".tiff"]

/-- The size in bytes up to which an image is small enough. -/
def largeAssetBytes : Int := 500 * 1024

/-- An extension in small letters. No character beyond ASCII has a small letter in one of an
image. -/
def foldedExtension (extension : String) : String :=
  String.ofList (extension.toList.map Char.toLower)

/-- Whether an extension is that of an image. -/
def isImageExtension (extension : String) : Bool :=
  imageExtensions.contains (foldedExtension extension)

/-- A size in kilobytes, rounded to a whole number. -/
def kilobytes (size : Int) : String :=
  String.ofList ((Binary64.ofRatio (size < 0) size.natAbs 1024).fixedText 0)

/-- A finding about an asset. -/
def assetFinding (path message recommendation : String) : Finding :=
  { kind := "unoptimized_asset", severity := .medium, message, file := some path
    recommendation := some recommendation }

/-- What is wrong with an image of a path, an extension and a size in bytes. -/
def checkAsset (path extension : String) (size : Int) : List Finding :=
  (if largeAssetBytes < size then
    [assetFinding path ("Large image asset detected (" ++ kilobytes size ++ " KB)")
      "Compress or optimize this image for web"]
   else []) ++
  (if nonWebExtensions.contains (foldedExtension extension) then
    [assetFinding path "Non-web-optimized image format detected" "Convert to PNG, JPEG, or WebP"]
   else [])

/-- The packages that are known to be heavy. -/
def heavyPackages : List String :=
  ["lodash", "moment", "date-fns", "ramda", "immutable", "bootstrap", "material-ui", "antd",
    "semantic-ui"]

/-- A finding for each heavy package among the declared ones. -/
def heavyDependencies (declared : List String) : List Finding :=
  (heavyPackages.filter declared.contains).map fun package =>
    { kind := "large_dependency"
      severity := .low
      message := "Large dependency detected: " ++ package
      file := some "package.json"
      recommendation := some "Consider using lighter alternatives or tree-shaking" }

end FrontendAudit.Performance
