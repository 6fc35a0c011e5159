/-
# MediaSniff.Builtin.Markup — markup in the built-in database

Page descriptions and XML vocabularies.
-/
import MediaSniff.Descriptor

set_option autoImplicit false

namespace MediaSniff.Builtin

/-- The entries of these types, in the order of their numbers. -/
def markups : List Descriptor.Entry := [
    { name := "application/postscript"
      comment := "PS document"
      acronym := some "PS"
      expandedAcronym := some "PostScript"
      subClassOf := ["text/plain"]
      globs := [{ pattern := "*.ps" }]
      magic := [
        { priority := some 50,
          tests := [
            { offset := "0", kind := "string", value := "%!" },
            { offset := "0", kind := "string", value := "\\004%!" }] }] },
    { name := "application/xhtml+xml"
      comment := "XHTML page"
      acronym := some "XHTML"
      expandedAcronym := some "Extensible HyperText Markup Language"
      subClassOf := ["application/xml"]
      globs := [{ pattern := "*.xhtml" }, { pattern := "*.xht" }]
      rootElements := [
        { namespaceUri := "http://www.w3.org/1999/xhtml", localName := "html" }] },
    { name := "image/svg+xml"
      comment := "SVG image"
      acronym := some "SVG"
      expandedAcronym := some "Scalable Vector Graphics"
      subClassOf := ["application/xml"]
      globs := [{ pattern := "*.svg" }]
      rootElements := [{ namespaceUri := "http://www.w3.org/2000/svg", localName := "svg" }] },
    { name := "application/atom+xml"
      comment := "Atom syndication feed"
      subClassOf := ["application/xml"]
      globs := [{ pattern := "*.atom" }]
      rootElements := [
        { namespaceUri := "http://www.w3.org/2005/Atom", localName := "feed" }] },
    { name := "application/rss+xml"
      comment := "RSS summary"
      acronym := some "RSS"
      expandedAcronym := some "RDF Site Summary"
      aliases := ["text/rss"]
      subClassOf := ["application/xml"]
      globs := [{ pattern := "*.rss" }]
      rootElements := [{ localName := "rss" }] },
    { name := "application/vnd.google-earth.kml+xml"
      comment := "KML geographic data"
      acronym := some "KML"
      expandedAcronym := some "Keyhole Markup Language"
      subClassOf := ["application/xml"]
      globs := [{ pattern := "*.kml" }]
      rootElements := [
        { namespaceUri := "http://www.opengis.net/kml/2.2", localName := "kml" },
        { namespaceUri := "http://earth.google.com/kml/2.0", localName := "kml" }] },
    { name := "application/gpx+xml"
      comment := "GPS exchange document"
      acronym := some "GPX"
      expandedAcronym := some "GPS Exchange Format"
      aliases := ["application/x-gpx+xml"]
      subClassOf := ["application/xml"]
      globs := [{ pattern := "*.gpx" }]
      rootElements := [
        { namespaceUri := "http://www.topografix.com/GPX/1/0", localName := "gpx" },
        { namespaceUri := "http://www.topografix.com/GPX/1/1", localName := "gpx" }] },
    { name := "application/mathml+xml"
      comment := "MathML document"
      acronym := some "MathML"
      expandedAcronym := some "Mathematical Markup Language"
      subClassOf := ["application/xml"]
      globs := [{ pattern := "*.mml" }]
      rootElements := [
        { namespaceUri := "http://www.w3.org/1998/Math/MathML", localName := "math" }] },
    { name := "application/xslt+xml"
      comment := "XSLT stylesheet"
      acronym := some "XSLT"
      expandedAcronym := some "eXtensible Stylesheet Language Transformation"
      subClassOf := ["application/xml"]
      globs := [{ pattern := "*.xsl" }, { pattern := "*.xslt" }]
      rootElements := [
        { namespaceUri := "http://www.w3.org/1999/XSL/Transform",
          localName := "stylesheet" },
        { namespaceUri := "http://www.w3.org/1999/XSL/Transform", localName := "transform" }] },
    { name := "application/x-fictionbook+xml"
      comment := "FictionBook document"
      subClassOf := ["application/xml"]
      globs := [{ pattern := "*.fb2" }]
      rootElements := [
        { namespaceUri := "http://www.gribuser.ru/xml/fictionbook/2.0",
          localName := "FictionBook" }] },
    { name := "application/metalink+xml"
      comment := "Metalink file"
      subClassOf := ["application/xml"]
      globs := [{ pattern := "*.metalink" }]
      rootElements := [
        { namespaceUri := "http://www.metalinker.org/", localName := "metalink" }] },
    { name := "application/metalink4+xml"
      comment := "Metalink file"
      subClassOf := ["application/xml"]
      globs := [{ pattern := "*.meta4" }]
      rootElements := [
        { namespaceUri := "urn:ietf:params:xml:ns:metalink", localName := "metalink" }] }]

end MediaSniff.Builtin
