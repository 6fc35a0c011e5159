/-
# MediaSniff.Builtin.Archives — archives in the built-in database

Documents, archives, packages and stores.
-/
import MediaSniff.Descriptor

set_option autoImplicit false

namespace MediaSniff.Builtin

/-- The entries of these types, in the order of their numbers. -/
def archives : List Descriptor.Entry := [
    { name := "application/pdf"
      comment := "PDF document"
      acronym := some "PDF"
      expandedAcronym := some "Portable Document Format"
      aliases := ["application/x-pdf"]
      globs := [{ pattern := "*.pdf" }]
      magic := [
        { priority := some 50,
          tests := [{ offset := "0:1024", kind := "string", value := "%PDF-" }] }] },
    { name := "application/zip"
      comment := "Zip archive"
      aliases := ["application/x-zip", "application/x-zip-compressed"]
      globs := [{ pattern := "*.zip" }]
      magic := [
        { priority := some 40,
          tests := [{ offset := "0", kind := "string", value := "PK\\003\\004" }] }] },
    { name := "application/x-java-archive"
      comment := "Java archive"
      aliases := ["application/java-archive"]
      subClassOf := ["application/zip"]
      globs := [{ pattern := "*.jar" }] },
    { name := "application/vnd.oasis.opendocument.text"
      comment := "ODT document"
      acronym := some "ODT"
      expandedAcronym := some "OpenDocument Text"
      subClassOf := ["application/zip"]
      globs := [{ pattern := "*.odt" }]
      magic := [
        { priority := some 70,
          tests := [
            { offset := "0",
              kind := "string",
              value := "PK\\003\\004",
              children := [
                { offset := "30",
                  kind := "string",
                  value := "mimetype",
                  children := [
                    { offset := "38",
                      kind := "string",
                      value := "application/vnd.oasis.opendocument.text" }] }] }] }] },
    { name := "application/epub+zip"
      comment := "electronic book document"
      subClassOf := ["application/zip"]
      globs := [{ pattern := "*.epub" }]
      magic := [
        { priority := some 70,
          tests := [
            { offset := "0",
              kind := "string",
              value := "PK\\003\\004",
              children := [
                { offset := "30",
                  kind := "string",
                  value := "mimetypeapplication/epub+zip" }] }] }] },
    { name := "application/gzip"
      comment := "Gzip archive"
      aliases := ["application/x-gzip"]
      globs := [{ pattern := "*.gz" }]
      magic := [
        { priority := some 45,
          tests := [{ offset := "0", kind := "string", value := "\\037\\213" }] }] },
    { name := "application/x-compressed-tar"
      comment := "Tar archive (gzip-compressed)"
      subClassOf := ["application/gzip"]
      globs := [{ pattern := "*.tar.gz" }, { pattern := "*.tgz" }] },
    { name := "application/x-tar"
      comment := "Tar archive"
      aliases := ["application/x-gtar"]
      globs := [{ pattern := "*.tar" }, { pattern := "*.gtar" }]
      magic := [
        { priority := some 60,
          tests := [
            { offset := "257", kind := "string", value := "ustar\\0" },
            { offset := "257", kind := "string", value := "ustar\\040\\040\\0" }] }] },
    { name := "application/x-bzip"
      comment := "Bzip archive"
      aliases := ["application/x-bzip2"]
      globs := [{ pattern := "*.bz2" }, { pattern := "*.bz" }]
      magic := [
        { priority := some 45,
          tests := [{ offset := "0", kind := "string", value := "BZh" }] }] },
    { name := "application/x-xz"
      comment := "XZ archive"
      globs := [{ pattern := "*.xz" }]
      magic := [
        { priority := some 50,
          tests := [{ offset := "0", kind := "string", value := "\\3757zXZ\\0" }] }] },
    { name := "application/x-7z-compressed"
      comment := "7-zip archive"
      globs := [{ pattern := "*.7z" }]
      magic := [
        { priority := some 50,
          tests := [
            { offset := "0", kind := "string", value := "7z\\274\\257\\047\\034" }] }] },
    { name := "application/x-raw-disk-image"
      comment := "Raw disk image"
      globs := [{ pattern := "*.img" }, { pattern := "*.raw-disk-image" }] },
    { name := "application/x-raw-disk-image-xz-compressed"
      comment := "Raw disk image (XZ-compressed)"
      subClassOf := ["application/x-xz"]
      globs := [{ pattern := "*.raw-disk-image.xz" }, { pattern := "*.img.xz" }] },
    { name := "application/x-cd-image"
      comment := "raw CD image"
      aliases := ["application/x-iso9660-image"]
      globs := [{ pattern := "*.iso" }, { pattern := "*.iso9660" }]
      magic := [
        { priority := some 10,
          tests := [
            { offset := "32769", kind := "string", value := "CD001" },
            { offset := "34817", kind := "string", value := "CD001" },
            { offset := "36865", kind := "string", value := "CD001" }] }] },
    { name := "application/x-archive"
      comment := "AR archive"
      globs := [{ pattern := "*.a" }, { pattern := "*.ar" }]
      magic := [
        { priority := some 45,
          tests := [{ offset := "0", kind := "string", value := "!<arch>" }] }] },
    { name := "application/vnd.debian.binary-package"
      comment := "Debian package"
      aliases := ["application/x-deb", "application/x-debian-package"]
      subClassOf := ["application/x-archive"]
      globs := [{ pattern := "*.deb" }, { pattern := "*.udeb" }]
      magic := [
        { priority := some 50,
          tests := [{ offset := "0", kind := "string", value := "!<arch>\\ndebian" }] }] },
    { name := "application/x-rpm"
      comment := "RPM package"
      aliases := ["application/x-redhat-package-manager"]
      globs := [{ pattern := "*.rpm" }]
      magic := [
        { priority := some 50,
          tests := [
            { offset := "0", kind := "string", value := "\\355\\253\\356\\333" }] }] },
    { name := "application/x-sqlite3"
      comment := "SQLite3 database"
      aliases := ["application/vnd.sqlite3"]
      globs := [{ pattern := "*.sqlite" }, { pattern := "*.sqlite3" }]
      magic := [
        { priority := some 50,
          tests := [{ offset := "0", kind := "string", value := "SQLite format 3" }] }] },
    { name := "application/vnd.tcpdump.pcap"
      comment := "Network Packet Capture"
      aliases := ["application/x-pcap"]
      globs := [
        { pattern := "*.pcap" },
        { pattern := "*.cap" },
        { pattern := "*.dmp" }]
      magic := [
        { priority := some 50,
          tests := [
            { offset := "0", kind := "big32", value := "0xa1b2c3d4" },
            { offset := "0", kind := "little32", value := "0xa1b2c3d4" }] }] }]

end MediaSniff.Builtin
